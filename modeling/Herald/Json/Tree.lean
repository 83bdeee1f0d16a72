import Herald.Json.Basic

/-!
A JSON text as far as it follows the grammar. What a reader of values may refuse later has its place
in the tree: numbers beyond all finite ones, strings that spell no text, and the place where the
grammar is left. A value is decoded from left to right, and the first fault met is the one reported.
-/

namespace Herald.Json

mutual

inductive Tree where
  | null
  | bool (b : Bool)
  /-- A number; without value if it is beyond all finite numbers. -/
  | number (n : Option Number)
  /-- A string; without text if its escapes or bytes spell none. -/
  | string (s : Option String)
  | array (items : Items)
  | object (members : Members)
  /-- The text leaves the grammar here. -/
  | broken

inductive Items where
  | done
  /-- The text leaves the grammar here. -/
  | cut
  | next (head : Tree) (tail : Items)

inductive Members where
  | done
  | cut
  | next (name : Option String) (value : Tree) (tail : Members)

end

instance : Inhabited Tree := ⟨.broken⟩

mutual

def Tree.whole : Tree → Bool
  | .array items => items.whole
  | .object members => members.whole
  | .broken => false
  | _ => true

def Items.whole : Items → Bool
  | .done => true
  | .cut => false
  | .next head tail => head.whole && tail.whole

def Members.whole : Members → Bool
  | .done => true
  | .cut => false
  | .next _ value tail => value.whole && tail.whole

end

def Items.length : Items → Nat
  | .next _ tail => tail.length + 1
  | _ => 0

mutual

def toTree : Json → Tree
  | .null => .null
  | .bool b => .bool b
  | .number n => .number (some n)
  | .string s => .string (some s)
  | .array items => .array (itemsOf items)
  | .object members => .object (membersOf members)

def itemsOf : List Json → Items
  | [] => .done
  | head :: tail => .next head.toTree (itemsOf tail)

def membersOf : List (String × Json) → Members
  | [] => .done
  | (name, value) :: tail => .next (some name) value.toTree (membersOf tail)

end

end Herald.Json
