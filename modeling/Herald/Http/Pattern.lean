/-!
Patterns of paths. In the text of a pattern braces hold a name, which stands for a segment of the path
or the end of one, or with a star for all that is left of the path; a brace itself is written twice.
Where two patterns fit the same path, the one that goes on exactly where the other begins a name is
the more exact one.
-/

namespace Herald.Http

inductive Pattern.Part where
  | exact (c : Char)
  | segment
  | rest
deriving DecidableEq, Repr

abbrev Pattern : Type :=
  List Pattern.Part

namespace Pattern

def parts : (inside : Bool) → List Char → Pattern
  | _, [] => []
  | true, '\x7d' :: cs => parts false cs
  | true, _ :: cs => parts true cs
  | false, '\x7b' :: '\x7b' :: cs => .exact '\x7b' :: parts false cs
  | false, '\x7d' :: '\x7d' :: cs => .exact '\x7d' :: parts false cs
  | false, '\x7b' :: '*' :: cs => .rest :: parts true cs
  | false, '\x7b' :: cs => .segment :: parts true cs
  | false, c :: cs => .exact c :: parts false cs

def ofString (text : String) : Pattern :=
  parts false text.toList

/-- True if a path fits the pattern. A name stands for at least one character at the end of the path,
and for any number of them before a slash. -/
def fits : Pattern → List Char → Bool
  | [], cs => cs.isEmpty
  | .exact c :: ps, d :: cs => c == d && fits ps cs
  | .exact _ :: _, [] => false
  | [.segment], cs => !cs.isEmpty && !cs.contains '/'
  | .segment :: ps, cs =>
    let after := cs.dropWhile (· != '/')
    !after.isEmpty && fits ps after
  | .rest :: _, cs => !cs.isEmpty

def compare : Pattern → Pattern → Ordering
  | .exact _ :: ps, .exact _ :: qs => compare ps qs
  | .exact _ :: _, _ :: _ => .lt
  | _ :: _, .exact _ :: _ => .gt
  | _ :: ps, _ :: qs => compare ps qs
  | _, _ => .eq

/-- True if no router can keep both patterns: they stand for the same paths, or where one of them has a
name, the other goes on with a name for all that is left. -/
def clashes : Pattern → Pattern → Bool
  | [], [] => true
  | .exact c :: ps, .exact d :: qs => c == d && clashes ps qs
  | .segment :: ps, .segment :: qs => clashes ps qs
  | .rest :: _, .segment :: _ => true
  | .segment :: _, .rest :: _ => true
  | .rest :: _, .rest :: _ => true
  | _, _ => false

/-- The value whose pattern fits a path; of several, one with a pattern as exact as any. -/
def lookup {α : Type} (path : List Char) : List (Pattern × α) → Option (Pattern × α)
  | [] => none
  | (p, a) :: rest =>
    match lookup path rest with
    | some (q, b) => if p.fits path && (compare q p).isGE then some (p, a) else some (q, b)
    | none => if p.fits path then some (p, a) else none

example : fits (ofString "/x/\x7bid\x7d") "/x/5".toList = true := by decide

example : fits (ofString "/x/\x7bid\x7d") "/x/".toList = false := by decide

example : fits (ofString "/x/\x7bid\x7d/y") "/x//y".toList = true := by decide

example : compare (ofString "/x/y") (ofString "/x/\x7bid\x7d") = .lt := by decide

end Pattern

end Herald.Http
