import Herald.Identifier.Forest
import Mathlib.Data.Finset.Card
import Mathlib.Data.Nat.Log
import Mathlib.Order.Interval.Finset.Nat

/-!
The forest of classes. Every position has one path to one root, and a path is no longer than the
binary logarithm of the size noted at its root; so the climb to a root always ends there. Looking a
root up changes no root, and joining two positions joins their classes and no others.
-/

namespace Herald.Forest

/-- `f.Path root x k`: the parents of `x` lead to `root` in `k` steps. -/
inductive Path (f : Forest) (root : Nat) : Nat → Nat → Prop where
  | here : f.parent root = root → Path f root root 0
  | up {x k : Nat} : f.parent x ≠ x → Path f root (f.parent x) k → Path f root x (k + 1)

namespace Path

variable {f : Forest} {r s x k m : Nat}

theorem root_fixed (h : f.Path r x k) : f.parent r = r := by
  induction h with
  | here hroot => exact hroot
  | up _ _ ih => exact ih

theorem eq_of_fixed (h : f.Path r x k) (hx : f.parent x = x) : r = x ∧ k = 0 := by
  cases h with
  | here => exact ⟨rfl, rfl⟩
  | up hne _ => exact absurd hx hne

theorem tail (h : f.Path r x k) (hx : f.parent x ≠ x) :
    ∃ m, k = m + 1 ∧ f.Path r (f.parent x) m := by
  cases h with
  | here hroot => exact absurd hroot hx
  | up _ hpath => exact ⟨_, rfl, hpath⟩

/-- A position has one root, and one path to it. -/
theorem unique (h : f.Path r x k) (h' : f.Path s x m) : r = s ∧ k = m := by
  induction h generalizing m with
  | here hroot =>
    obtain ⟨hs, hm⟩ := h'.eq_of_fixed hroot
    exact ⟨hs.symm, hm.symm⟩
  | up hne _ ih =>
    obtain ⟨m', rfl, htail⟩ := h'.tail hne
    obtain ⟨hr, hk⟩ := ih htail
    exact ⟨hr, congrArg (· + 1) hk⟩

end Path

/-- `g` has the paths of `f`, none of them longer, and notes the same sizes. -/
structure Shortens (f g : Forest) : Prop where
  length_eq : g.parents.length = f.parents.length
  sizes_eq : g.sizes = f.sizes
  path : ∀ {r x k}, f.Path r x k → ∃ m ≤ k, g.Path r x m

namespace Shortens

variable {f g h : Forest}

theorem refl (f : Forest) : f.Shortens f :=
  ⟨rfl, rfl, fun {_ _ k} hpath => ⟨k, Nat.le_refl k, hpath⟩⟩

theorem trans (hfg : f.Shortens g) (hgh : g.Shortens h) : f.Shortens h where
  length_eq := hgh.length_eq.trans hfg.length_eq
  sizes_eq := hgh.sizes_eq.trans hfg.sizes_eq
  path := by
    intro r x k hpath
    obtain ⟨m, hm, hpath⟩ := hfg.path hpath
    obtain ⟨l, hl, hpath⟩ := hgh.path hpath
    exact ⟨l, hl.trans hm, hpath⟩

end Shortens

theorem parent_hang (f : Forest) {x : Nat} (hx : x < f.parents.length) (p y : Nat) :
    (f.hang x p).parent y = if y = x then p else f.parent y := by
  unfold parent hang
  rw [List.getElem?_set]
  by_cases hy : y = x
  · subst hy
    simp [hx]
  · simp [hy, Ne.symm hy]

/-- The grandparent of a position that is no root is nearer to the root. -/
theorem Path.grandparent {f : Forest} {r x k : Nat} (h : f.Path r x k) (hx : f.parent x ≠ x) :
    ∃ m < k, f.Path r (f.parent (f.parent x)) m := by
  obtain ⟨m, rfl, hparent⟩ := h.tail hx
  by_cases hroot : f.parent (f.parent x) = f.parent x
  · rw [hroot]
    exact ⟨m, Nat.lt_succ_self m, hparent⟩
  · obtain ⟨l, rfl, hgrand⟩ := hparent.tail hroot
    exact ⟨l, by omega, hgrand⟩

/-- Hanging a position below its grandparent takes steps away from paths, and never adds one. -/
theorem shortens_hang {f : Forest} {x : Nat} (hx : x < f.parents.length)
    (hne : f.parent x ≠ x) : f.Shortens (f.hang x (f.parent (f.parent x))) where
  length_eq := by simp [hang]
  sizes_eq := rfl
  path := by
    intro r y k hpath
    induction k using Nat.strong_induction_on generalizing y with
    | _ k ih =>
      by_cases hyx : y = x
      · subst hyx
        obtain ⟨m, hm, hgrand⟩ := hpath.grandparent hne
        obtain ⟨l, hl, hshort⟩ := ih m hm hgrand
        -- The grandparent is nearer to the root than `y`, so it is not `y` itself.
        have hneq : f.parent (f.parent y) ≠ y := by
          intro heq
          rw [heq] at hgrand
          have := (hgrand.unique hpath).2
          omega
        refine ⟨l + 1, by omega, .up ?_ ?_⟩
        · rw [parent_hang f hx, if_pos rfl]
          exact hneq
        · rw [parent_hang f hx, if_pos rfl]
          exact hshort
      · have hsame : (f.hang x (f.parent (f.parent x))).parent y = f.parent y := by
          rw [parent_hang f hx, if_neg hyx]
        cases hpath with
        | here hroot => exact ⟨0, Nat.le_refl 0, .here (hsame.trans hroot)⟩
        | @up _ m hy htail =>
          obtain ⟨l, hl, hshort⟩ := ih m (Nat.lt_succ_self m) htail
          refine ⟨l + 1, Nat.succ_le_succ hl, .up ?_ ?_⟩
          · rw [hsame]
            exact hy
          · rw [hsame]
            exact hshort

/-- Parents of positions are positions. -/
def Closed (f : Forest) : Prop :=
  ∀ x < f.parents.length, f.parent x < f.parents.length

theorem Closed.hang {f : Forest} (h : f.Closed) {x p : Nat} (hx : x < f.parents.length)
    (hp : p < f.parents.length) : (f.hang x p).Closed := by
  intro y hy
  have hlength : (f.hang x p).parents.length = f.parents.length := by simp [Forest.hang]
  rw [hlength] at hy ⊢
  rw [parent_hang f hx]
  split
  · exact hp
  · exact h y hy

/-- The climb ends at the root if it may take as many steps as the path has. -/
theorem climb_of_path {f : Forest} {r x k steps : Nat} (hclosed : f.Closed)
    (hx : x < f.parents.length) (hpath : f.Path r x k) (hk : k ≤ steps) :
    (f.climb steps x).2 = r ∧ f.Shortens (f.climb steps x).1 ∧ (f.climb steps x).1.Closed := by
  induction steps generalizing f x k with
  | zero =>
    obtain rfl : k = 0 := Nat.le_zero.mp hk
    cases hpath
    exact ⟨rfl, Shortens.refl f, hclosed⟩
  | succ steps ih =>
    unfold climb
    split
    · rename_i hroot
      obtain ⟨rfl, -⟩ := hpath.eq_of_fixed hroot
      exact ⟨rfl, Shortens.refl f, hclosed⟩
    · rename_i hne
      have hgrand := hclosed _ (hclosed x hx)
      have hshort := shortens_hang hx hne
      obtain ⟨m, hm, hpath⟩ := hpath.grandparent hne
      obtain ⟨l, hl, hpath⟩ := hshort.path hpath
      obtain ⟨hroot, hmore, hclosed⟩ := ih (hclosed.hang hx hgrand)
        (by rw [hshort.length_eq]; exact hgrand) hpath (by omega)
      exact ⟨hroot, hshort.trans hmore, hclosed⟩

/-- The root that a position is found to have. -/
def root (f : Forest) (x : Nat) : Nat :=
  (f.find x).2

/-- What holds of every forest over `n` positions: parents are positions, every position has a path to
a root, no longer than the logarithm of the size noted there, and the size noted at a root is the
number of positions with that root. -/
structure Sound (f : Forest) (n : Nat) : Prop where
  length_eq : f.parents.length = n
  sizes_length : f.sizes.length = n
  closed : f.Closed
  path : ∀ x < n, ∃ r k, f.Path r x k ∧ 2 ^ k ≤ f.weight r
  weight_eq : ∀ r < n, f.parent r = r → f.weight r = {x ∈ Finset.range n | f.root x = r}.card

theorem Path.root_lt {f : Forest} {r x k : Nat} (h : f.Path r x k) (hclosed : f.Closed)
    (hx : x < f.parents.length) : r < f.parents.length := by
  induction h with
  | here _ => exact hx
  | up _ _ ih => exact ih (hclosed _ hx)

namespace Sound

variable {f g : Forest} {n r x k : Nat}

theorem root_lt_of_path (h : f.Sound n) (hx : x < n) (hpath : f.Path r x k) : r < n := by
  rw [← h.length_eq] at hx ⊢
  exact hpath.root_lt h.closed hx

theorem two_pow_le_weight (h : f.Sound n) (hx : x < n) (hpath : f.Path r x k) :
    2 ^ k ≤ f.weight r := by
  obtain ⟨r', k', hpath', hle⟩ := h.path x hx
  obtain ⟨rfl, rfl⟩ := hpath.unique hpath'
  exact hle

theorem weight_le (h : f.Sound n) (hr : r < n) (hroot : f.parent r = r) : f.weight r ≤ n := by
  rw [h.weight_eq r hr hroot]
  exact (Finset.card_filter_le _ _).trans_eq (Finset.card_range n)

theorem steps_lt (h : f.Sound n) (hx : x < n) (hpath : f.Path r x k) : k < n := by
  have hr := h.root_lt_of_path hx hpath
  calc k < 2 ^ k := Nat.lt_two_pow_self
    _ ≤ f.weight r := h.two_pow_le_weight hx hpath
    _ ≤ n := h.weight_le hr hpath.root_fixed

theorem find_of_path (h : f.Sound n) (hx : x < n) (hpath : f.Path r x k) :
    (f.find x).2 = r ∧ f.Shortens (f.find x).1 ∧ (f.find x).1.Closed := by
  have hsteps := h.steps_lt hx hpath
  rw [← h.length_eq] at hx hsteps
  exact climb_of_path h.closed hx hpath hsteps.le

theorem root_of_path (h : f.Sound n) (hx : x < n) (hpath : f.Path r x k) : f.root x = r :=
  (h.find_of_path hx hpath).1

theorem path_root (h : f.Sound n) (hx : x < n) : ∃ k, f.Path (f.root x) x k := by
  obtain ⟨r, k, hpath, -⟩ := h.path x hx
  rw [h.root_of_path hx hpath]
  exact ⟨k, hpath⟩

theorem root_lt (h : f.Sound n) (hx : x < n) : f.root x < n := by
  obtain ⟨k, hpath⟩ := h.path_root hx
  exact h.root_lt_of_path hx hpath

theorem parent_root (h : f.Sound n) (hx : x < n) : f.parent (f.root x) = f.root x := by
  obtain ⟨k, hpath⟩ := h.path_root hx
  exact hpath.root_fixed

/-- The roots of a sound forest are those of any forest with all its paths. -/
theorem root_eq_of_shortens (h : f.Sound n) (hfg : f.Shortens g) (hclosed : g.Closed)
    (hx : x < n) : g.root x = f.root x := by
  obtain ⟨k, hpath⟩ := h.path_root hx
  obtain ⟨m, hm, hshort⟩ := hfg.path hpath
  have hsteps := h.steps_lt hx hpath
  have hlength : g.parents.length = n := hfg.length_eq.trans h.length_eq
  rw [← hlength] at hx hsteps
  exact (climb_of_path hclosed hx hshort (hm.trans hsteps.le)).1

theorem of_shortens (h : f.Sound n) (hfg : f.Shortens g) (hclosed : g.Closed) : g.Sound n where
  length_eq := hfg.length_eq.trans h.length_eq
  sizes_length := hfg.sizes_eq ▸ h.sizes_length
  closed := hclosed
  path := by
    intro x hx
    obtain ⟨r, k, hpath, hle⟩ := h.path x hx
    obtain ⟨m, hm, hshort⟩ := hfg.path hpath
    refine ⟨r, m, hshort, ?_⟩
    have hweight : g.weight r = f.weight r := by rw [weight, weight, hfg.sizes_eq]
    rw [hweight]
    exact (Nat.pow_le_pow_right (by decide) hm).trans hle
  weight_eq := by
    intro r hr hroot
    obtain ⟨s, k, hpath, -⟩ := h.path r hr
    obtain ⟨m, -, hshort⟩ := hfg.path hpath
    obtain ⟨rfl, -⟩ := hshort.eq_of_fixed hroot
    have hweight : g.weight s = f.weight s := by rw [weight, weight, hfg.sizes_eq]
    rw [hweight, h.weight_eq s hr hpath.root_fixed]
    congr 1
    apply Finset.filter_congr
    intro x hx
    rw [h.root_eq_of_shortens hfg hclosed (Finset.mem_range.mp hx)]

theorem find (h : f.Sound n) (hx : x < n) : (f.find x).1.Sound n := by
  obtain ⟨k, hpath⟩ := h.path_root hx
  obtain ⟨-, hshort, hclosed⟩ := h.find_of_path hx hpath
  exact h.of_shortens hshort hclosed

/-- Looking a root up changes no root. -/
theorem root_find (h : f.Sound n) (hx : x < n) {y : Nat} (hy : y < n) :
    (f.find x).1.root y = f.root y := by
  obtain ⟨k, hpath⟩ := h.path_root hx
  obtain ⟨-, hshort, hclosed⟩ := h.find_of_path hx hpath
  exact h.root_eq_of_shortens hshort hclosed hy

end Sound

/-! ### Positions alone -/

@[simp] theorem parent_discrete (n x : Nat) : (discrete n).parent x = x := by
  unfold discrete parent
  by_cases hx : x < n
  · simp [hx]
  · rw [List.getElem?_eq_none (by simpa using hx)]
    rfl

@[simp] theorem root_discrete (n x : Nat) : (discrete n).root x = x := by
  have hclimb : ∀ steps, ((discrete n).climb steps x).2 = x := by
    intro steps
    cases steps with
    | zero => rfl
    | succ steps => rw [climb, if_pos (parent_discrete n x)]
  exact hclimb _

theorem sound_discrete (n : Nat) : (discrete n).Sound n := by
  have hweight : ∀ x < n, (discrete n).weight x = 1 := by
    intro x hx
    simp [discrete, weight, hx]
  refine ⟨by simp [discrete], by simp [discrete], ?_, ?_, ?_⟩
  · intro x hx
    rw [parent_discrete]
    exact hx
  · intro x hx
    exact ⟨x, 0, .here (parent_discrete n x), by rw [hweight x hx]; decide⟩
  · intro r hr _
    rw [hweight r hr]
    simp only [root_discrete, Finset.filter_eq', Finset.mem_range, hr, if_true,
      Finset.card_singleton]

/-! ### Joining classes -/

theorem parent_link (f : Forest) {top child : Nat} (hchild : child < f.parents.length) (x : Nat) :
    (f.link top child).parent x = if x = child then top else f.parent x :=
  parent_hang f hchild top x

theorem weight_link (f : Forest) {top child : Nat} (htop : top < f.sizes.length) (x : Nat) :
    (f.link top child).weight x =
      if x = top then f.weight top + f.weight child else f.weight x := by
  unfold weight link
  rw [List.getElem?_set]
  by_cases hx : x = top
  · subst hx
    simp [htop, weight]
  · simp [hx, Ne.symm hx]

/-- Two roots of which the second may be hung below the first. -/
structure Joinable (f : Forest) (n top child : Nat) : Prop where
  top_lt : top < n
  child_lt : child < n
  top_root : f.parent top = top
  child_root : f.parent child = child
  ne : top ≠ child
  weight_le : f.weight child ≤ f.weight top

/-- The root that a position has once `child` hangs below `top`. -/
def redirect (top child r : Nat) : Nat :=
  if r = child then top else r

namespace Sound

variable {f : Forest} {n top child r x k : Nat}

/-- The paths to `child` go on to `top`, and all others stay as they are. -/
theorem path_link (h : f.Sound n) (hj : f.Joinable n top child) (hpath : f.Path r x k) :
    (f.link top child).Path (redirect top child r) x (if r = child then k + 1 else k) := by
  have hchild : child < f.parents.length := h.length_eq.symm ▸ hj.child_lt
  induction hpath with
  | here hr =>
    unfold redirect
    split
    · rename_i heq
      subst heq
      refine .up ?_ ?_
      · rw [parent_link f hchild, if_pos rfl]
        exact hj.ne
      · rw [parent_link f hchild, if_pos rfl]
        exact .here (by rw [parent_link f hchild, if_neg hj.ne, hj.top_root])
    · rename_i hrne
      exact .here (by rw [parent_link f hchild, if_neg hrne, hr])
  | @up x k hx _ ih =>
    have hxne : x ≠ child := fun heq => hx (heq ▸ hj.child_root)
    have hsame : (f.link top child).parent x = f.parent x := by
      rw [parent_link f hchild, if_neg hxne]
    have hup : (f.link top child).Path (redirect top child r) x
        ((if r = child then k + 1 else k) + 1) :=
      .up (by rwa [hsame]) (by rwa [hsame])
    split
    · rename_i heq
      rwa [if_pos heq] at hup
    · rename_i hrne
      rwa [if_neg hrne] at hup

theorem two_pow_le_weight_link (h : f.Sound n) (hj : f.Joinable n top child) (hx : x < n)
    (hpath : f.Path r x k) :
    2 ^ (if r = child then k + 1 else k) ≤ (f.link top child).weight (redirect top child r) := by
  have hpow := h.two_pow_le_weight hx hpath
  have hle := hj.weight_le
  rw [weight_link f (h.sizes_length.symm ▸ hj.top_lt)]
  unfold redirect
  split
  · rename_i heq
    rw [heq] at hpow
    rw [if_pos rfl, Nat.pow_succ]
    omega
  · split
    · rename_i heq
      rw [heq] at hpow
      omega
    · exact hpow

/-- The members of two classes, taken together. -/
theorem weight_add_weight (h : f.Sound n) (hj : f.Joinable n top child) :
    f.weight top + f.weight child =
      {x ∈ Finset.range n | f.root x = top ∨ f.root x = child}.card := by
  rw [h.weight_eq top hj.top_lt hj.top_root, h.weight_eq child hj.child_lt hj.child_root,
    Finset.filter_or, Finset.card_union_of_disjoint]
  refine Finset.disjoint_filter.mpr fun x _ htop hchild => hj.ne ?_
  rw [← htop, hchild]

theorem closed_link (h : f.Sound n) (hj : f.Joinable n top child) : (f.link top child).Closed :=
  h.closed.hang (h.length_eq.symm ▸ hj.child_lt) (h.length_eq.symm ▸ hj.top_lt)

theorem length_link (h : f.Sound n) (top child : Nat) :
    (f.link top child).parents.length = n := by
  simpa [Forest.link] using h.length_eq

theorem weight_link_le (h : f.Sound n) (hj : f.Joinable n top child) (hr : r < n)
    (hroot : f.parent r = r) : (f.link top child).weight r ≤ n := by
  rw [weight_link f (h.sizes_length.symm ▸ hj.top_lt)]
  split
  · rw [h.weight_add_weight hj]
    exact (Finset.card_filter_le _ _).trans_eq (Finset.card_range n)
  · exact h.weight_le hr hroot

theorem redirect_lt (hj : f.Joinable n top child) (hr : r < n) : redirect top child r < n := by
  unfold redirect
  split
  · exact hj.top_lt
  · exact hr

theorem parent_redirect (hj : f.Joinable n top child) (hr : f.parent r = r) :
    f.parent (redirect top child r) = redirect top child r := by
  unfold redirect
  split
  · exact hj.top_root
  · exact hr

theorem root_link (h : f.Sound n) (hj : f.Joinable n top child) (hx : x < n) :
    (f.link top child).root x = redirect top child (f.root x) := by
  obtain ⟨k, hpath⟩ := h.path_root hx
  have hpow := h.two_pow_le_weight_link hj hx hpath
  have hle := h.weight_link_le hj (redirect_lt hj (h.root_lt hx))
    (parent_redirect hj (h.parent_root hx))
  have hsteps := Nat.lt_two_pow_self.le.trans (hpow.trans hle)
  rw [← h.length_link top child] at hx hsteps
  exact (climb_of_path (h.closed_link hj) hx (h.path_link hj hpath) hsteps).1

/-- Hanging the smaller of two classes below the larger one keeps the forest sound. -/
theorem link (h : f.Sound n) (hj : f.Joinable n top child) : (f.link top child).Sound n where
  length_eq := h.length_link top child
  sizes_length := by simpa [Forest.link] using h.sizes_length
  closed := h.closed_link hj
  path := by
    intro x hx
    obtain ⟨k, hpath⟩ := h.path_root hx
    exact ⟨_, _, h.path_link hj hpath, h.two_pow_le_weight_link hj hx hpath⟩
  weight_eq := by
    intro r hr hroot
    have hchild : child < f.parents.length := h.length_eq.symm ▸ hj.child_lt
    have hrne : r ≠ child := by
      rintro rfl
      rw [parent_link f hchild, if_pos rfl] at hroot
      exact hj.ne hroot
    have hroot' : f.parent r = r := by
      rwa [parent_link f hchild, if_neg hrne] at hroot
    rw [weight_link f (h.sizes_length.symm ▸ hj.top_lt)]
    split
    · rename_i heq
      rw [heq, h.weight_add_weight hj]
      congr 1
      apply Finset.filter_congr
      intro x hx
      rw [h.root_link hj (Finset.mem_range.mp hx), redirect]
      grind
    · rename_i hne
      rw [h.weight_eq r hr hroot']
      congr 1
      apply Finset.filter_congr
      intro x hx
      rw [h.root_link hj (Finset.mem_range.mp hx), redirect]
      grind

/-- Joining two positions sends the root of one of them to the root of the other. -/
theorem union_redirect (h : f.Sound n) {a b : Nat} (ha : a < n) (hb : b < n) :
    (f.union a b).Sound n ∧ ∃ top child,
      (top = f.root a ∧ child = f.root b ∨ top = f.root b ∧ child = f.root a) ∧
        ∀ x < n, (f.union a b).root x = redirect top child (f.root x) := by
  have hg := h.find ha
  have hk := hg.find hb
  have hra : (f.find a).2 = f.root a := rfl
  have hrb : ((f.find a).1.find b).2 = f.root b := h.root_find ha hb
  have hroots : ∀ x < n, ((f.find a).1.find b).1.root x = f.root x := by
    intro x hx
    rw [hg.root_find hb hx, h.root_find ha hx]
  have hfixed : ∀ x < n, ((f.find a).1.find b).1.parent (f.root x) = f.root x := by
    intro x hx
    have := hk.parent_root hx
    rwa [hroots x hx] at this
  unfold Forest.union
  simp only [hra, hrb]
  split
  · rename_i heq
    refine ⟨hk, f.root a, f.root b, Or.inl ⟨rfl, rfl⟩, fun x hx => ?_⟩
    rw [hroots x hx, redirect, heq]
    split <;> simp_all
  · rename_i hne
    split
    · rename_i hlt
      have hj : ((f.find a).1.find b).1.Joinable n (f.root b) (f.root a) :=
        ⟨h.root_lt hb, h.root_lt ha, hfixed b hb, hfixed a ha, Ne.symm hne, hlt.le⟩
      refine ⟨hk.link hj, f.root b, f.root a, Or.inr ⟨rfl, rfl⟩, fun x hx => ?_⟩
      rw [hk.root_link hj hx, hroots x hx]
    · rename_i hlt
      have hj : ((f.find a).1.find b).1.Joinable n (f.root a) (f.root b) :=
        ⟨h.root_lt ha, h.root_lt hb, hfixed a ha, hfixed b hb, hne, Nat.le_of_not_lt hlt⟩
      refine ⟨hk.link hj, f.root a, f.root b, Or.inl ⟨rfl, rfl⟩, fun x hx => ?_⟩
      rw [hk.root_link hj hx, hroots x hx]

theorem union (h : f.Sound n) {a b : Nat} (ha : a < n) (hb : b < n) : (f.union a b).Sound n :=
  (h.union_redirect ha hb).1

/-- Joining two positions joins their classes and no others. -/
theorem root_union_eq_iff (h : f.Sound n) {a b x y : Nat} (ha : a < n) (hb : b < n) (hx : x < n)
    (hy : y < n) :
    (f.union a b).root x = (f.union a b).root y ↔
      f.root x = f.root y ∨ (f.root x = f.root a ∨ f.root x = f.root b) ∧
        (f.root y = f.root a ∨ f.root y = f.root b) := by
  obtain ⟨-, top, child, hcase, hroot⟩ := h.union_redirect ha hb
  rw [hroot x hx, hroot y hy, redirect, redirect]
  grind

end Sound

end Herald.Forest
