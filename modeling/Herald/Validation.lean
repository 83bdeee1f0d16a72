import Herald.Transport.Timeline

/-!
Startup checks. A component that cannot do its work says so before the first request is served.
-/

namespace Herald

structure ValidationError where
  component : String
  reason : String
  cause : Option String
deriving DecidableEq, Repr

def ValidationError.message (e : ValidationError) : String :=
  s!"validation of {e.component} failed: {e.reason}"

/-- A startup check, which may heed a token and take its time. There is no result if it waits for
ever. -/
abbrev Check : Type :=
  Token → Timeline → Option (Except ValidationError Unit) × Timeline

/-- The check whose result is known beforehand. -/
def Check.of (result : Except ValidationError Unit) : Check :=
  fun _ tl => (some result, tl)

/-- At some time the check passes under the token. -/
def Check.Passes (check : Check) (token : Token) : Prop :=
  ∃ tl tl', check token tl = (some (.ok ()), tl')

@[simp] theorem Check.passes_of_iff {result : Except ValidationError Unit} {token : Token} :
    (Check.of result).Passes token ↔ result = .ok () := by
  constructor
  · rintro ⟨tl, tl', h⟩
    exact Option.some.inj (congrArg Prod.fst h)
  · rintro rfl
    exact ⟨.start none, .start none, rfl⟩

end Herald
