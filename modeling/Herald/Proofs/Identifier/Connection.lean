import Herald.Proofs.Identifier.Forest
import Mathlib.Logic.Function.Iterate
import Mathlib.Logic.Relation

/-!
Calls on a forest, one after another. Every look-up ends at a root by itself and reads no parent that is
not there, and no sum of sizes exceeds the number of positions. After any calls two positions have one
root exactly if the unions made so far connect them.
-/

namespace Herald.Forest

/-! ### The climb as a loop -/

/-- The climb as a loop that nothing but a root stops and that reads only parents that are there:
`f.Climbs x g r` if it starts at `x`, ends at `r` and leaves `g` behind. -/
inductive Climbs : Forest → Nat → Forest → Nat → Prop
  | ended {f : Forest} {x : Nat} (hx : f.parents[x]? = some x) : Climbs f x f x
  | halved {f g : Forest} {x p q r : Nat} (hx : f.parents[x]? = some p) (hne : p ≠ x)
      (hp : f.parents[p]? = some q) (hrest : Climbs (f.hang x q) q g r) : Climbs f x g r

/-- The union of two classes by such climbs, with sizes that are there and a sum within `limit`. -/
inductive Unites (limit : Nat) (f : Forest) (a b : Nat) : Forest → Prop
  | same {g h : Forest} {r : Nat} (ha : f.Climbs a g r) (hb : g.Climbs b h r) : Unites limit f a b h
  | above {g h : Forest} {r s m k : Nat} (ha : f.Climbs a g r) (hb : g.Climbs b h s) (hne : r ≠ s)
      (hr : h.sizes[r]? = some m) (hs : h.sizes[s]? = some k) (hle : k ≤ m) (hsum : m + k ≤ limit) :
      Unites limit f a b (h.link r s)
  | below {g h : Forest} {r s m k : Nat} (ha : f.Climbs a g r) (hb : g.Climbs b h s) (hne : r ≠ s)
      (hr : h.sizes[r]? = some m) (hs : h.sizes[s]? = some k) (hlt : m < k) (hsum : k + m ≤ limit) :
      Unites limit f a b (h.link s r)

theorem getElem?_parents (f : Forest) {x : Nat} (hx : x < f.parents.length) :
    f.parents[x]? = some (f.parent x) := by
  rw [parent, List.getElem?_eq_getElem hx]
  rfl

theorem getElem?_sizes (f : Forest) {x : Nat} (hx : x < f.sizes.length) :
    f.sizes[x]? = some (f.weight x) := by
  rw [weight, List.getElem?_eq_getElem hx]
  rfl

/-- If it may take as many steps as the path has, the climb is never cut short. -/
theorem climbs_climb {f : Forest} {r x k steps : Nat} (hclosed : f.Closed)
    (hx : x < f.parents.length) (hpath : f.Path r x k) (hk : k ≤ steps) :
    f.Climbs x (f.climb steps x).1 (f.climb steps x).2 := by
  induction steps generalizing f x k with
  | zero =>
    obtain rfl : k = 0 := Nat.le_zero.mp hk
    cases hpath with
    | here hroot => exact .ended (by rw [getElem?_parents f hx, hroot])
  | succ steps ih =>
    unfold climb
    split
    · rename_i hroot
      exact .ended (by rw [getElem?_parents f hx, hroot])
    · rename_i hne
      have hparent := hclosed x hx
      have hgrand := hclosed _ hparent
      have hshort := shortens_hang hx hne
      obtain ⟨m, hm, hpath⟩ := hpath.grandparent hne
      obtain ⟨l, hl, hpath⟩ := hshort.path hpath
      refine .halved (getElem?_parents f hx) hne (getElem?_parents f hparent) ?_
      exact ih (hclosed.hang hx hgrand) (by rw [hshort.length_eq]; exact hgrand) hpath (by omega)

/-- The parents of a position lie on its path. -/
theorem Path.iterate {f : Forest} {r x k : Nat} (h : f.Path r x k) (j : Nat) :
    f.Path r (f.parent^[j] x) (k - j) := by
  induction h generalizing j with
  | here hroot =>
    rw [Function.iterate_fixed hroot, Nat.zero_sub]
    exact .here hroot
  | @up x k hx hpath ih =>
    cases j with
    | zero => exact .up hx hpath
    | succ j =>
      rw [Function.iterate_succ_apply, Nat.succ_sub_succ]
      exact ih j

theorem Path.fixed_of_iterate {f : Forest} {r x k : Nat} (h : f.Path r x k) {j : Nat}
    (hcycle : f.parent^[j + 1] x = x) : f.parent x = x := by
  have hback := h.iterate (j + 1)
  rw [hcycle] at hback
  have hk : k = 0 := by
    have := (h.unique hback).2
    omega
  subst hk
  cases h with
  | here hroot => exact hroot

namespace Sound

variable {f : Forest} {n x : Nat}

theorem climbs_find (h : f.Sound n) (hx : x < n) : f.Climbs x (f.find x).1 (f.root x) := by
  obtain ⟨k, hpath⟩ := h.path_root hx
  have hsteps := h.steps_lt hx hpath
  rw [← h.length_eq] at hx hsteps
  exact climbs_climb h.closed hx hpath hsteps.le

theorem weight_add_le (h : f.Sound n) {top child : Nat} (hj : f.Joinable n top child) :
    f.weight top + f.weight child ≤ n := by
  rw [h.weight_add_weight hj]
  exact (Finset.card_filter_le _ _).trans_eq (Finset.card_range n)

/-- The union of two classes is made by climbs that end, and its sum by sizes that are there. -/
theorem unites_union (h : f.Sound n) {a b : Nat} (ha : a < n) (hb : b < n) :
    f.Unites n a b (f.union a b) := by
  have hg := h.find ha
  have hk := hg.find hb
  have hclimb := h.climbs_find ha
  have hclimb' := hg.climbs_find hb
  have hra := h.root_lt ha
  have hrb := hg.root_lt hb
  have hfixed : ((f.find a).1.find b).1.parent (f.root a) = f.root a := by
    have hroot := hk.parent_root ha
    rwa [hg.root_find hb ha, h.root_find ha ha] at hroot
  have hfixed' : ((f.find a).1.find b).1.parent ((f.find a).1.root b) = (f.find a).1.root b := by
    have hroot := hk.parent_root hb
    rwa [hg.root_find hb hb] at hroot
  have hsize : ∀ r < n, ((f.find a).1.find b).1.sizes[r]? =
      some (((f.find a).1.find b).1.weight r) :=
    fun r hr => getElem?_sizes _ (by rwa [hk.sizes_length])
  unfold Forest.union
  dsimp only
  change Unites n f a b (if f.root a = (f.find a).1.root b then _ else
    if Forest.weight _ (f.root a) < Forest.weight _ ((f.find a).1.root b) then _ else _)
  split
  · rename_i heq
    rw [heq] at hclimb
    exact .same hclimb hclimb'
  · rename_i hne
    split
    · rename_i hlt
      exact .below hclimb hclimb' hne (hsize _ hra) (hsize _ hrb) hlt
        (hk.weight_add_le ⟨hrb, hra, hfixed', hfixed, Ne.symm hne, hlt.le⟩)
    · rename_i hle
      exact .above hclimb hclimb' hne (hsize _ hra) (hsize _ hrb) (Nat.le_of_not_lt hle)
        (hk.weight_add_le ⟨hra, hrb, hfixed, hfixed', hne, Nat.le_of_not_lt hle⟩)

/-- What is in neither of the two classes keeps its root. -/
theorem root_union_of_apart (h : f.Sound n) {a b : Nat} (ha : a < n) (hb : b < n) (hx : x < n)
    (hxa : f.root x ≠ f.root a) (hxb : f.root x ≠ f.root b) : (f.union a b).root x = f.root x := by
  obtain ⟨-, top, child, hcase, hroot⟩ := h.union_redirect ha hb
  rw [hroot x hx, redirect, if_neg]
  rcases hcase with ⟨-, rfl⟩ | ⟨-, rfl⟩
  · exact hxb
  · exact hxa

end Sound

/-! ### Calls -/

inductive Call where
  | find (x : Nat)
  | union (a b : Nat)
deriving DecidableEq, Repr

/-- The call names positions below `n` only. -/
def Call.Within (n : Nat) : Call → Prop
  | .find x => x < n
  | .union a b => a < n ∧ b < n

def call (f : Forest) : Call → Forest
  | .find x => (f.find x).1
  | .union a b => f.union a b

/-- The forest over `n` positions after these calls. -/
def after (n : Nat) (calls : List Call) : Forest :=
  calls.foldl call (discrete n)

/-- The unions among these calls lead from one position to the other. -/
def Connected (calls : List Call) : Nat → Nat → Prop :=
  Relation.EqvGen fun a b => .union a b ∈ calls

theorem Connected.mono {calls more : List Call} {x y : Nat} (h : Connected calls x y)
    (hsub : ∀ a b, .union a b ∈ calls → .union a b ∈ more) : Connected more x y :=
  Relation.EqvGen.mono hsub x y h

/-- What agrees on both positions of every union agrees on all that are connected. -/
theorem Connected.congr {calls : List Call} {x y : Nat} (h : Connected calls x y) {v : Nat → Nat}
    (hagree : ∀ a b, .union a b ∈ calls → v a = v b) : v x = v y := by
  induction h with
  | rel a b hcall => exact hagree a b hcall
  | refl => rfl
  | symm _ _ _ ih => exact ih.symm
  | trans _ _ _ _ _ ih ih' => exact ih.trans ih'

/-- The roots of a sound forest tell what these calls have connected. -/
structure Tracks (n : Nat) (calls : List Call) (f : Forest) : Prop where
  sound : f.Sound n
  root_eq_iff : ∀ x < n, ∀ y < n, f.root x = f.root y ↔ Connected calls x y

namespace Tracks

variable {n : Nat} {calls : List Call} {f : Forest}

theorem discrete (n : Nat) : Tracks n [] (.discrete n) where
  sound := sound_discrete n
  root_eq_iff := by
    intro x _ y _
    rw [root_discrete, root_discrete]
    constructor
    · rintro rfl
      exact .refl x
    · exact fun h => Connected.congr h (v := id) fun _ _ hcall => absurd hcall List.not_mem_nil

theorem find (h : Tracks n calls f) {x : Nat} (hx : x < n) :
    Tracks n (calls ++ [.find x]) (f.find x).1 where
  sound := h.sound.find hx
  root_eq_iff := by
    intro y hy z hz
    rw [h.sound.root_find hx hy, h.sound.root_find hx hz, h.root_eq_iff y hy z hz]
    constructor
    · exact fun hyz => hyz.mono fun _ _ hcall => List.mem_append_left _ hcall
    · exact fun hyz => hyz.mono fun _ _ hcall => by simpa using hcall

theorem union (h : Tracks n calls f) (hcalls : ∀ c ∈ calls, c.Within n) {a b : Nat} (ha : a < n)
    (hb : b < n) : Tracks n (calls ++ [.union a b]) (f.union a b) where
  sound := h.sound.union ha hb
  root_eq_iff := by
    intro x hx y hy
    have hnew : Connected (calls ++ [.union a b]) a b := .rel a b (by simp)
    have hold : ∀ {u v : Nat}, u < n → v < n → f.root u = f.root v →
        Connected (calls ++ [.union a b]) u v := fun hu hv heq =>
      ((h.root_eq_iff _ hu _ hv).mp heq).mono fun _ _ hcall => List.mem_append_left _ hcall
    constructor
    · intro heq
      have toClass : ∀ z < n, f.root z = f.root a ∨ f.root z = f.root b →
          Connected (calls ++ [.union a b]) z a := by
        rintro z hz (hza | hzb)
        · exact hold hz ha hza
        · exact .trans _ _ _ (hold hz hb hzb) (.symm _ _ hnew)
      obtain hsame | ⟨hxab, hyab⟩ := (h.sound.root_union_eq_iff ha hb hx hy).mp heq
      · exact hold hx hy hsame
      · exact .trans _ _ _ (toClass x hx hxab) (.symm _ _ (toClass y hy hyab))
    · refine fun hconnected => hconnected.congr fun u v hcall => ?_
      rcases List.mem_append.mp hcall with hcall | hcall
      · obtain ⟨hu, hv⟩ := hcalls _ hcall
        exact (h.sound.root_union_eq_iff ha hb hu hv).mpr
          (.inl ((h.root_eq_iff u hu v hv).mpr (.rel u v hcall)))
      · obtain ⟨rfl, rfl⟩ := Call.union.inj (List.mem_singleton.mp hcall)
        exact (h.sound.root_union_eq_iff ha hb ha hb).mpr (.inr ⟨.inl rfl, .inr rfl⟩)

theorem call (h : Tracks n calls f) (hcalls : ∀ c ∈ calls, c.Within n) {c : Call}
    (hc : c.Within n) : Tracks n (calls ++ [c]) (f.call c) := by
  cases c with
  | find x => exact h.find hc
  | union a b => exact h.union hcalls hc.1 hc.2

end Tracks

theorem tracks_after {n : Nat} {calls : List Call} (h : ∀ c ∈ calls, c.Within n) :
    Tracks n calls (after n calls) := by
  induction calls using List.reverseRecOn with
  | nil => exact .discrete n
  | append_singleton calls c ih =>
    obtain ⟨hcalls, hc⟩ := List.forall_mem_append.mp h
    rw [after, List.foldl_append]
    exact (ih hcalls).call hcalls (hc c (List.mem_singleton_self c))

/-! ### What calls leave behind -/

/-- What can be relied on once these calls have been made. -/
structure Keeps (n : Nat) (calls : List Call) (f : Forest) : Prop where
  parents_length : f.parents.length = n
  sizes_length : f.sizes.length = n
  parent_lt : ∀ x < n, f.parent x < n
  /-- Only a root comes back to itself. -/
  acyclic : ∀ x < n, ∀ k, f.parent^[k + 1] x = x → f.parent x = x
  root_lt : ∀ x < n, f.root x < n
  parent_root : ∀ x < n, f.parent (f.root x) = f.root x
  climbs_find : ∀ x < n, f.Climbs x (f.find x).1 (f.root x)
  root_find : ∀ x < n, ∀ y < n, (f.find x).1.root y = f.root y
  unites_union : ∀ a < n, ∀ b < n, f.Unites n a b (f.union a b)
  root_union : ∀ a < n, ∀ b < n, ∀ x < n, ∀ y < n,
    (f.union a b).root x = (f.union a b).root y ↔
      f.root x = f.root y ∨ (f.root x = f.root a ∨ f.root x = f.root b) ∧
        (f.root y = f.root a ∨ f.root y = f.root b)
  root_union_of_apart : ∀ a < n, ∀ b < n, ∀ x < n, f.root x ≠ f.root a → f.root x ≠ f.root b →
    (f.union a b).root x = f.root x
  root_eq_iff : ∀ x < n, ∀ y < n, f.root x = f.root y ↔ Connected calls x y
  size_root : ∀ r < n, f.parent r = r →
    f.sizes[r]? = some {x ∈ Finset.range n | f.root x = r}.card
  /-- The chain of parents is logarithmic in the size at its root. -/
  steps_le : ∀ x < n, ∃ k, f.Path (f.root x) x k ∧ k ≤ Nat.log 2 (f.weight (f.root x))

theorem Tracks.keeps {n : Nat} {calls : List Call} {f : Forest} (h : Tracks n calls f) :
    Keeps n calls f where
  parents_length := h.sound.length_eq
  sizes_length := h.sound.sizes_length
  parent_lt := by
    have hclosed := h.sound.closed
    rwa [Closed, h.sound.length_eq] at hclosed
  acyclic := by
    intro x hx k hcycle
    obtain ⟨steps, hpath⟩ := h.sound.path_root hx
    exact hpath.fixed_of_iterate hcycle
  root_lt := fun _ hx => h.sound.root_lt hx
  parent_root := fun _ hx => h.sound.parent_root hx
  climbs_find := fun _ hx => h.sound.climbs_find hx
  root_find := fun _ hx _ hy => h.sound.root_find hx hy
  unites_union := fun _ ha _ hb => h.sound.unites_union ha hb
  root_union := fun _ ha _ hb _ hx _ hy => h.sound.root_union_eq_iff ha hb hx hy
  root_union_of_apart := fun _ ha _ hb _ hx hxa hxb => h.sound.root_union_of_apart ha hb hx hxa hxb
  root_eq_iff := h.root_eq_iff
  size_root := by
    intro r hr hroot
    rw [getElem?_sizes f (by rwa [h.sound.sizes_length]), h.sound.weight_eq r hr hroot]
  steps_le := by
    intro x hx
    obtain ⟨k, hpath⟩ := h.sound.path_root hx
    have hweight := h.sound.two_pow_le_weight hx hpath
    exact ⟨k, hpath, Nat.le_log_of_pow_le (by decide) hweight⟩

/-- Whatever is looked up and joined, in whatever order, the forest stays one: look-ups end at roots,
unions connect what they name and nothing else, and chains of parents stay short. -/
theorem calls_keep_forest (n : Nat) (calls : List Call) (h : ∀ c ∈ calls, c.Within n) :
    Keeps n calls (after n calls) :=
  (tracks_after h).keeps

/-- Three unions, the last of which makes a chain of two steps, and a look-up that halves it. -/
def sampleCalls : List Call :=
  [.union 0 1, .union 2 3, .union 0 2, .find 3]

theorem calls_keep_forest_sample :
    (∀ c ∈ sampleCalls, c.Within 5) ∧ after 5 sampleCalls = ⟨[0, 0, 0, 0, 4], [4, 1, 2, 1, 1]⟩ ∧
      Connected sampleCalls 1 3 ∧ ¬Connected sampleCalls 1 4 ∧
      (after 5 sampleCalls).Climbs 3 (after 5 sampleCalls) 0 := by
  have hwithin : ∀ c ∈ sampleCalls, c.Within 5 := by
    simp [sampleCalls, Call.Within]
  have hkeeps := calls_keep_forest 5 sampleCalls hwithin
  refine ⟨hwithin, by decide, ?_, ?_, hkeeps.climbs_find 3 (by decide)⟩
  · exact (hkeeps.root_eq_iff 1 (by decide) 3 (by decide)).mp (by decide)
  · exact fun hconnected =>
      absurd ((hkeeps.root_eq_iff 1 (by decide) 4 (by decide)).mpr hconnected) (by decide)

end Herald.Forest
