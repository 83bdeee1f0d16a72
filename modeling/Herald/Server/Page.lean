import Herald.Http.Pattern

/-!
Pages. A server answers reading requests under further patterns with fixed texts. A pattern that the
server's own routes leave no room for cannot be that of a page.
-/

namespace Herald.Server

def healthPattern : String := "/healthz"

def eventPattern : String := "/event/\x7bparser\x7d"

def preferencesPattern : String := "/users/\x7bkey\x7d/preferences"

def configurationPattern : String := "/configuration"

/-- True if a page can be added under a pattern. It may be under the very pattern of events, which are
never read. -/
def isFree (text : String) : Bool :=
  let clashes (own : String) := (Http.Pattern.ofString text).clashes (.ofString own)
  !(clashes healthPattern || clashes preferencesPattern || clashes configurationPattern) &&
    (text == eventPattern || !clashes eventPattern)

/-- A text that is shown under a pattern of its own. -/
structure Page where
  text : String
  answer : String
  free : isFree text

namespace Page

def make? (text answer : String) : Option Page :=
  if h : isFree text then some ⟨text, answer, h⟩ else none

def pattern (p : Page) : Http.Pattern :=
  .ofString p.text

example : isFree "/users/\x7bname\x7d/preferences" = false := by decide

example : isFree "/users/\x7bname\x7d" = true := by decide

end Page

end Herald.Server
