import Herald.Processor.Chain

/-!
How a chain of processors runs: in order, each on what the one before it returned, up to the first that
fails.
-/

namespace Herald.Processor

variable {store : UserStore} {e : Event}

/-- The processors have run, the first on `before` and each other one on what the one before it
returned, and the last returned `after`. -/
inductive Ran (store : UserStore) (e : Event) :
    List Processor → (before after : List Notification) → Prop
  | nil (ns : List Notification) : Ran store e [] ns ns
  | cons {p : Processor} {rest : List Processor} {before between after : List Notification}
      (first : (p.process store e before).value = .ok between)
      (more : Ran store e rest between after) : Ran store e (p :: rest) before after

/-- One of the processors has failed, on what those before it had made of `before`. What comes after it
has not run: whatever it is, the outcome is the same. -/
def Stopped (store : UserStore) (e : Event) (processors : List Processor)
    (before : List Notification) (failure : ProcessError) : Prop :=
  ∃ done p rest between, processors = done ++ p :: rest ∧ Ran store e done before between ∧
    (p.process store e between).value = .error failure ∧
    ∀ others, runOn store e (done ++ p :: others) before = runOn store e processors before

theorem runOn_cons_of_ok {p : Processor} {before between : List Notification}
    (h : (p.process store e before).value = .ok between) (rest : List Processor) :
    runOn store e (p :: rest) before =
      ⟨(runOn store e rest between).value, (p.process store e before).log ++
        (⟨.debug, "Processor finished", [("processor", p.name),
          ("count", toString between.length)]⟩ :: (runOn store e rest between).log)⟩ := by
  rw [runOn, Logged.bind, h]
  rfl

theorem runOn_cons_of_error {p : Processor} {before : List Notification} {failure : ProcessError}
    (h : (p.process store e before).value = .error failure) (rest : List Processor) :
    runOn store e (p :: rest) before = ⟨.error failure, (p.process store e before).log⟩ := by
  rw [runOn, Logged.bind, h]
  simp [Logged.pure]

/-- A longer chain goes on with what the shorter one returned. -/
theorem value_runOn_append (first rest : List Processor) (before : List Notification) :
    (runOn store e (first ++ rest) before).value =
      (runOn store e first before).value >>= fun between => (runOn store e rest between).value := by
  induction first generalizing before with
  | nil => rfl
  | cons p first ih =>
    rw [List.cons_append]
    cases hp : (p.process store e before).value with
    | error failure =>
      rw [runOn_cons_of_error hp, runOn_cons_of_error hp]
      rfl
    | ok between =>
      rw [runOn_cons_of_ok hp, runOn_cons_of_ok hp]
      exact ih between

theorem Stopped.cons {p : Processor} {rest : List Processor} {before between : List Notification}
    {failure : ProcessError} (first : (p.process store e before).value = .ok between)
    (h : Stopped store e rest between failure) : Stopped store e (p :: rest) before failure := by
  obtain ⟨done, q, later, reached, rfl, hran, hfails, hothers⟩ := h
  refine ⟨p :: done, q, later, reached, rfl, .cons first hran, hfails, fun others => ?_⟩
  rw [List.cons_append, runOn_cons_of_ok first, runOn_cons_of_ok first, hothers]

/-- A chain runs to its end or stops at the first processor that fails. -/
theorem runOn_cases (store : UserStore) (e : Event) (processors : List Processor)
    (before : List Notification) :
    (∃ after, Ran store e processors before after ∧
        (runOn store e processors before).value = .ok after) ∨
      ∃ failure, Stopped store e processors before failure ∧
        (runOn store e processors before).value = .error failure := by
  induction processors generalizing before with
  | nil => exact .inl ⟨before, .nil before, rfl⟩
  | cons p rest ih =>
    cases hp : (p.process store e before).value with
    | error failure =>
      refine .inr ⟨failure, ⟨[], p, rest, before, rfl, .nil before, hp, fun others => ?_⟩, ?_⟩
      · rw [List.nil_append, runOn_cons_of_error hp, runOn_cons_of_error hp]
      · rw [runOn_cons_of_error hp]
    | ok between =>
      obtain ⟨after, hran, hvalue⟩ | ⟨failure, hstopped, hvalue⟩ := ih between
      · refine .inl ⟨after, .cons hp hran, ?_⟩
        rw [runOn_cons_of_ok hp, hvalue]
      · refine .inr ⟨failure, hstopped.cons hp, ?_⟩
        rw [runOn_cons_of_ok hp, hvalue]

/-- A chain whose result is a list has run to its end. -/
theorem ran_of_value {processors : List Processor} {before after : List Notification}
    (h : (runOn store e processors before).value = .ok after) :
    Ran store e processors before after := by
  obtain ⟨reached, hran, hvalue⟩ | ⟨failure, -, hvalue⟩ := runOn_cases store e processors before
  · cases h.symm.trans hvalue
    exact hran
  · cases h.symm.trans hvalue

end Herald.Processor
