-- SUMMARY: Where each constraint is a preference about one variable, each variable is solved by itself.
import BoxLayout.Proofs.Preferences

/-!
# Closed forms

A bound compares one variable with a constant. Where all constraints are bounds and none of
them is required, no two variables have to do with each other, so the least cost is reached
for each variable by itself: it is pulled to its target and to its bounds, each with the
strength of its priority. A bound that is stronger than all that pulls elsewhere holds
exactly.

An engine with such constraints keeps its solver through every history, unless a loop runs
out of steps, and its reads answer these values.
-/

namespace BoxLayout

/-! ## Strengths -/

/-- The strength of a priority. -/
def Priority.weight (p : Priority) : Rat := (Strength.ofPriority p).weight

namespace Priority

theorem weight_nonneg (p : Priority) : 0 ≤ p.weight := by
  cases p <;> decide +kernel

theorem weight_le_p0 (p : Priority) : p.weight ≤ p0.weight := by
  cases p <;> decide +kernel

theorem weight_p1 : p1.weight = 100000000 := by decide +kernel

theorem weight_p2 : p2.weight = 10000000 := by decide +kernel

theorem weight_p3 : p3.weight = 100000 := by decide +kernel

end Priority

/-! ## Relations -/

namespace Relation

/-- The relation of the sides in the other order. -/
def swap : Relation → Relation
  | equal => equal
  | atMost => atLeast
  | atLeast => atMost

variable {r : Relation} {a b : Rat}

theorem violation_swap (r : Relation) (a : Rat) : r.swap.violation a = r.violation (-a) := by
  cases r with
  | equal => exact (abs_neg a).symm
  | atMost => rfl
  | atLeast => exact congrArg (max · 0) (neg_neg a).symm

/-- A violation changes by no more than the value does. -/
theorem violation_le (r : Relation) (a b : Rat) : r.violation a ≤ r.violation b + |a - b| := by
  have habs : a - b ≤ |a - b| := le_abs_self (a - b)
  have hneg : -(a - b) ≤ |a - b| := neg_le_abs (a - b)
  cases r with
  | equal => exact sub_le_iff_le_add'.1 (abs_sub_abs_le_abs_sub a b)
  | atMost =>
    refine max_le ?_ (add_nonneg (violation_nonneg .atMost b) (abs_nonneg _))
    have hb : b ≤ max b 0 := le_max_left b 0
    change a ≤ max b 0 + |a - b|
    linarith
  | atLeast =>
    refine max_le ?_ (add_nonneg (violation_nonneg .atLeast b) (abs_nonneg _))
    have hb : -b ≤ max (-b) 0 := le_max_left (-b) 0
    change -a ≤ max (-b) 0 + |a - b|
    linarith

/-- What does not hold is violated by the whole value. -/
theorem violation_of_not_holds (h : ¬r.Holds a 0) : r.violation a = |a| := by
  cases r with
  | equal => rfl
  | atMost =>
    have ha : 0 < a := not_le.1 h
    exact (max_eq_left ha.le).trans (abs_of_pos ha).symm
  | atLeast =>
    have ha : a < 0 := not_le.1 h
    exact (max_eq_left (neg_nonneg.2 ha.le)).trans (abs_of_neg ha).symm

theorem violation_zero (r : Relation) : r.violation 0 = 0 := by
  rw [violation_eq_zero_iff]
  cases r <;> rfl

end Relation

/-! ## Bounds -/

/-- How a variable compares with a constant. -/
structure Bound where
  subject : VariableId
  relation : Relation
  value : Rat
  deriving DecidableEq

/-- The bound that a definition states, if it compares one variable with a constant, on
either side. -/
def Definition.bound? (d : Definition Rat) : Option Bound :=
  match d.lhs.terms, d.rhs.terms with
  | [t], [] =>
    if t.coefficient = 1 ∧ d.lhs.constant = 0 then some ⟨t.unknown, d.relation, d.rhs.constant⟩
    else none
  | [], [t] =>
    if t.coefficient = 1 ∧ d.rhs.constant = 0 then
      some ⟨t.unknown, d.relation.swap, d.lhs.constant⟩
    else none
  | _, _ => none

namespace Definition

variable {d : Definition Rat} {b : Bound} {y : VariableId → Rat} {x : VariableId}

/-- Both forms of a bound. -/
theorem bound?_cases (h : d.bound? = some b) :
    (d.lhs = .ofUnknown b.subject ∧ d.relation = b.relation ∧ d.rhs = .ofConstant b.value) ∨
    (d.lhs = .ofConstant b.value ∧ d.relation.swap = b.relation ∧ d.rhs = .ofUnknown b.subject) := by
  obtain ⟨⟨k, ts⟩, r, ⟨k', ts'⟩, p⟩ := d
  unfold bound? at h
  dsimp only at h
  split at h
  · next t =>
    split at h
    · next hone =>
      obtain ⟨u, m⟩ := t
      obtain ⟨rfl, rfl⟩ := hone
      cases h
      exact Or.inl ⟨rfl, rfl, rfl⟩
    · cases h
  · next t =>
    split at h
    · next hone =>
      obtain ⟨u, m⟩ := t
      obtain ⟨rfl, rfl⟩ := hone
      cases h
      exact Or.inr ⟨rfl, rfl, rfl⟩
    · cases h
  · cases h

theorem violation_of_bound (h : d.bound? = some b) (y : VariableId → Rat) :
    d.violation y = b.relation.violation (y b.subject - b.value) := by
  unfold violation
  obtain ⟨hlhs, hrel, hrhs⟩ | ⟨hlhs, hrel, hrhs⟩ := bound?_cases h
  · rw [hlhs, hrel, hrhs, Linear.eval_ofUnknown, Linear.eval_ofConstant]
  · rw [hlhs, ← hrel, hrhs, Linear.eval_ofUnknown, Linear.eval_ofConstant, Relation.violation_swap,
      neg_sub]

theorem holds_iff_violation : d.Holds y ↔ d.violation y = 0 :=
  Relation.holds_sub.symm.trans Relation.violation_eq_zero_iff.symm

theorem holds_of_bound (h : d.bound? = some b) :
    d.Holds y ↔ b.relation.Holds (y b.subject) b.value := by
  rw [holds_iff_violation, violation_of_bound h, Relation.violation_eq_zero_iff]
  exact Relation.holds_sub

theorem mentions_of_bound (h : d.bound? = some b) : d.mentions x = true ↔ x = b.subject := by
  unfold mentions
  obtain ⟨hlhs, -, hrhs⟩ | ⟨hlhs, -, hrhs⟩ := bound?_cases h
  · rw [hlhs, hrhs]
    simp [Linear.mentions, Linear.ofUnknown, Linear.ofConstant, eq_comm]
  · rw [hlhs, hrhs]
    simp [Linear.mentions, Linear.ofUnknown, Linear.ofConstant, eq_comm]

end Definition

namespace Engine

variable {e : Engine Rat} {x : VariableId} {entry : VariableEntry Rat} {y : VariableId → Rat}
  {d : Definition Rat} {v z : Rat}

/-! ## What pulls a variable -/

/-- All constraints are bounds, and none is required. -/
def Plain (e : Engine Rat) : Prop :=
  ∀ c entry, e.constraints.entries.get? c = some entry →
    entry.definition.priority ≠ .p0 ∧ entry.definition.bound?.isSome = true

instance (e : Engine Rat) : Decidable e.Plain :=
  decidable_of_iff (∀ c ∈ e.constraints.entries.entries,
      c.2.definition.priority ≠ .p0 ∧ c.2.definition.bound?.isSome = true)
    ⟨fun h c entry hc => h (c, entry) (OrderedMap.mem_entries_iff.2 hc),
      fun h c hc => h c.1 c.2 (OrderedMap.mem_entries_iff.1 hc)⟩

theorem Plain.unforced (h : e.Plain) : e.Unforced := fun c entry hc => (h c entry hc).1

/-- What the enabled constraints state. -/
def enforced (e : Engine Rat) : List (Definition Rat) :=
  (e.constraints.entries.values.filter ConstraintEntry.enabled).map ConstraintEntry.definition

/-- What the enabled constraints state that mention a variable. -/
def acting (e : Engine Rat) (x : VariableId) : List (Definition Rat) :=
  e.enforced.filter fun d => d.mentions x

/-- What it costs if a variable has this value: by how much it misses its target and violates
what acts on it. -/
def pull (e : Engine Rat) (x : VariableId) (entry : VariableEntry Rat) (z : Rat) : Rat :=
  entry.priority.weight * |z - entry.target|
    + ((e.acting x).map fun d => d.priority.weight * d.violation fun _ => z).sum

theorem Plain.enforced (h : e.Plain) (hd : d ∈ e.enforced) :
    d.priority ≠ .p0 ∧ ∃ b, d.bound? = some b := by
  obtain ⟨entry, hentry, rfl⟩ := List.mem_map.1 hd
  obtain ⟨c, hc⟩ := OrderedMap.mem_values_iff.1 (List.mem_filter.1 hentry).1
  obtain ⟨hp, hbound⟩ := h c entry hc
  exact ⟨hp, Option.isSome_iff_exists.1 hbound⟩

/-- What acts on a variable is a bound of it. -/
theorem Plain.acting (h : e.Plain) (hd : d ∈ e.acting x) : ∃ r k, d.bound? = some ⟨x, r, k⟩ := by
  obtain ⟨hd, hmentions⟩ := List.mem_filter.1 hd
  obtain ⟨-, ⟨x', r, k⟩, hb⟩ := h.enforced hd
  obtain rfl := (Definition.mentions_of_bound hb).1 hmentions
  exact ⟨r, k, hb⟩

/-- The cost of the constraints is that of the bounds. -/
theorem Plain.cost (h : e.Plain) (y : VariableId → Rat) : e.cost y
    = (e.vars.entries.entries.map fun v => v.2.cost (y v.1)).sum
      + (e.enforced.map fun d => d.priority.weight * d.violation y).sum := by
  unfold Engine.cost Engine.enforced
  rw [List.map_map]
  congr 2
  apply List.map_congr_left
  intro entry hentry
  obtain ⟨c, hc⟩ := OrderedMap.mem_values_iff.1 (List.mem_filter.1 hentry).1
  exact if_neg fun hreq => (h c entry hc).1 (Priority.isRequired_iff.1 hreq)

/-- Moving one variable changes the cost by what pulls it. -/
theorem Plain.cost_update (h : e.Plain) (hx : e.vars.entries.get? x = some entry)
    (hp : entry.priority ≠ .p0) (y : VariableId → Rat) :
    ∃ rest, ∀ z, e.cost (Function.update y x z) = rest + e.pull x entry z := by
  let others := Entries.dropKey x e.vars.entries.entries
  let apart := e.enforced.filter fun d => decide ¬d.mentions x = true
  let restVars := (others.map fun v => v.2.cost (y v.1)).sum
  let restBounds := (apart.map fun d => d.priority.weight * d.violation y).sum
  refine ⟨restVars + restBounds, fun z => ?_⟩
  have hvars : (e.vars.entries.entries.map fun v => v.2.cost (Function.update y x z v.1)).sum
      = entry.priority.weight * |z - entry.target| + restVars := by
    have hperm := Entries.perm_dropKey e.vars.entries.nodup hx
    rw [(hperm.map _).sum_eq, List.map_cons, List.sum_cons, Function.update_self]
    congr 2
    · exact if_neg fun hreq => hp (Priority.isRequired_iff.1 hreq)
    · apply List.map_congr_left
      intro v hv
      have hne : v.1 ≠ x := of_decide_eq_true (List.mem_filter.1 hv).2
      rw [Function.update_of_ne hne]
  have hbounds : (e.enforced.map fun d => d.priority.weight * d.violation (Function.update y x z)).sum
      = ((e.acting x).map fun d => d.priority.weight * d.violation fun _ => z).sum + restBounds := by
    have hsplit := List.sum_map_filter_add_sum_map_filter_not (fun d => d.mentions x = true)
      (fun d => d.priority.weight * d.violation (Function.update y x z)) e.enforced
    simp only [Bool.decide_eq_true] at hsplit
    rw [← hsplit]
    congr 2
    · apply List.map_congr_left
      intro d hd
      obtain ⟨r, k, hb⟩ := h.acting hd
      rw [Definition.violation_of_bound hb, Definition.violation_of_bound hb, Function.update_self]
    · apply List.map_congr_left
      intro d hd
      obtain ⟨hd, hmentions⟩ := List.mem_filter.1 hd
      obtain ⟨-, b, hb⟩ := h.enforced hd
      have hne : b.subject ≠ x := fun hsame =>
        of_decide_eq_true hmentions ((Definition.mentions_of_bound hb).2 hsame.symm)
      rw [Definition.violation_of_bound hb, Definition.violation_of_bound hb,
        Function.update_of_ne hne]
  rw [h.cost, hvars, hbounds, pull]
  ring

/-- Moving a variable that is not required leaves everything met. -/
theorem Unforced.required_update (h : e.Unforced) (hx : e.vars.entries.get? x = some entry)
    (hp : entry.priority ≠ .p0) (hy : e.Required y) (z : Rat) : e.Required (Function.update y x z) where
  vars x' entry' hx' hp' := by
    have hne : x' ≠ x := by
      rintro rfl
      rw [hx] at hx'
      exact hp (Option.some.inj hx' ▸ hp')
    rw [Function.update_of_ne hne]
    exact hy.vars x' entry' hx' hp'
  constraints c k hc _ hp' := absurd hp' (h c k hc)

/-! ## The closed form -/

/-- The value is what the target of a variable and the constraints that act on it make of it. -/
structure ClosedForm (e : Engine Rat) (x : VariableId) (entry : VariableEntry Rat) (v : Rat) :
    Prop where
  pinned : entry.priority = .p0 → v = entry.target
  least : entry.priority ≠ .p0 → ∀ z, e.pull x entry v ≤ e.pull x entry z
  /-- What is stronger than all the rest together holds exactly. -/
  dominant : ∀ d others, (e.acting x).Perm (d :: others) →
    entry.priority.weight + (others.map fun d => d.priority.weight).sum < d.priority.weight →
    d.Holds fun _ => v
  raised : ∀ d low, entry.priority = .p3 → e.acting x = [d] →
    d.priority = .p1 → d.bound? = some ⟨x, .atLeast, low⟩ → v = max low entry.target
  clamped : ∀ d d' low high, entry.priority = .p3 → (e.acting x).Perm [d, d'] →
    d.priority = .p1 → d.bound? = some ⟨x, .atLeast, low⟩ →
    d'.priority = .p2 → d'.bound? = some ⟨x, .atMost, high⟩ → v = max low (min high entry.target)

/-- What acts on a variable costs at one value hardly more than at another one nearby. -/
theorem Plain.sum_le (h : e.Plain) {ds : List (Definition Rat)} (hds : ∀ d ∈ ds, d ∈ e.acting x)
    (z v : Rat) : (ds.map fun d => d.priority.weight * d.violation fun _ => z).sum
      ≤ (ds.map fun d => d.priority.weight * d.violation fun _ => v).sum
        + (ds.map fun d => d.priority.weight).sum * |z - v| := by
  induction ds with
  | nil => simp
  | cons d ds ih =>
    have hrest := ih fun d' hd' => hds d' (List.mem_cons_of_mem _ hd')
    obtain ⟨r, k, hb⟩ := h.acting (hds d List.mem_cons_self)
    have hviolation : d.violation (fun _ => z) ≤ d.violation (fun _ => v) + |z - v| := by
      have hle := r.violation_le (z - k) (v - k)
      rw [sub_sub_sub_cancel_right] at hle
      rwa [Definition.violation_of_bound hb, Definition.violation_of_bound hb]
    have hone := mul_le_mul_of_nonneg_left hviolation d.priority.weight_nonneg
    simp only [List.map_cons, List.sum_cons]
    linarith

/-- A constraint that is stronger than all that pulls elsewhere holds at the least cost: at the
nearest value where it holds, what it costs less outweighs the rest. -/
theorem Plain.holds_of_least (h : e.Plain) (hleast : ∀ z, e.pull x entry v ≤ e.pull x entry z)
    {others : List (Definition Rat)} (hperm : (e.acting x).Perm (d :: others))
    (hstrong : entry.priority.weight + (others.map fun d => d.priority.weight).sum
      < d.priority.weight) : d.Holds fun _ => v := by
  by_contra hnot
  have hmem (d' : Definition Rat) (hd' : d' ∈ d :: others) : d' ∈ e.acting x := hperm.mem_iff.2 hd'
  obtain ⟨r, k, hb⟩ := h.acting (hmem d List.mem_cons_self)
  have hpull (z : Rat) : e.pull x entry z = entry.priority.weight * |z - entry.target|
      + (d.priority.weight * r.violation (z - k)
        + (others.map fun d => d.priority.weight * d.violation fun _ => z).sum) := by
    rw [pull, (hperm.map _).sum_eq, List.map_cons, List.sum_cons, Definition.violation_of_bound hb]
  have hviolated : r.violation (v - k) = |k - v| := by
    rw [abs_sub_comm]
    refine Relation.violation_of_not_holds fun hholds => hnot ?_
    exact (Definition.holds_of_bound hb).2 (Relation.holds_sub.1 hholds)
  have hmet : r.violation (k - k) = 0 := by rw [sub_self, Relation.violation_zero]
  have hgap : 0 < |k - v| := by
    refine lt_of_le_of_ne (abs_nonneg _) fun hzero => hnot ?_
    rw [Definition.holds_iff_violation, Definition.violation_of_bound hb, hviolated, ← hzero]
  have hown := mul_le_mul_of_nonneg_left (abs_sub_le k v entry.target) entry.priority.weight_nonneg
  have hothers := h.sum_le (fun d' hd' => hmem d' (List.mem_cons_of_mem _ hd')) k v
  have hle := hleast k
  rw [hpull, hpull, hviolated, hmet] at hle
  have hlt := mul_lt_mul_of_pos_right hstrong hgap
  linarith

/-! ### Clamps -/

/-- Above a bound that holds, the target alone decides. -/
theorem eq_raised {low target v : Rat} (hlow : low ≤ v)
    (hleast : |v - target| ≤ |max low target - target|) : v = max low target := by
  obtain hle | hle := le_total low target
  · rw [max_eq_right hle, sub_self, abs_zero] at hleast
    rw [max_eq_right hle]
    exact sub_eq_zero.1 (abs_eq_zero.1 (le_antisymm hleast (abs_nonneg _)))
  · rw [max_eq_left hle] at hleast ⊢
    rw [abs_of_nonneg (by linarith), abs_of_nonneg (by linarith)] at hleast
    linarith

/-- Above a bound that holds, a second one and the weaker target decide. -/
theorem eq_clamped {low high target v : Rat} (hlow : low ≤ v)
    (hleast : 100000 * |v - target| + 10000000 * max (v - high) 0
      ≤ 100000 * |max low (min high target) - target|
        + 10000000 * max (max low (min high target) - high) 0) :
    v = max low (min high target) := by
  have hover : v - high ≤ max (v - high) 0 := le_max_left _ _
  obtain hle | hle := le_total low (min high target)
  · rw [max_eq_right hle] at hleast ⊢
    obtain hhigh | hhigh := le_total high target
    · rw [min_eq_left hhigh, sub_self, max_self, mul_zero, add_zero] at hleast
      rw [min_eq_left hhigh]
      obtain hv | hv := le_total v high
      · rw [abs_of_nonpos (by linarith), abs_of_nonpos (by linarith)] at hleast
        have hzero : 0 ≤ max (v - high) 0 := le_max_right _ _
        linarith
      · have hback := abs_sub_le high v target
        rw [abs_of_nonpos (sub_nonpos.2 hv)] at hback
        linarith
    · rw [min_eq_right hhigh, sub_self, abs_zero, max_eq_right (sub_nonpos.2 hhigh)] at hleast
      rw [min_eq_right hhigh]
      have hzero : 0 ≤ max (v - high) 0 := le_max_right _ _
      refine sub_eq_zero.1 (abs_eq_zero.1 (le_antisymm ?_ (abs_nonneg _)))
      linarith
  · rw [max_eq_left hle] at hleast ⊢
    obtain hhigh | htarget := min_le_iff.1 hle
    · rw [max_eq_left (sub_nonneg.2 hhigh)] at hleast
      have hback := abs_sub_le low v target
      rw [abs_of_nonpos (sub_nonpos.2 hlow)] at hback
      linarith
    · have hmono : max (low - high) 0 ≤ max (v - high) 0 :=
        max_le_max (sub_le_sub_right hlow high) le_rfl
      rw [abs_of_nonneg (by linarith), abs_of_nonneg (by linarith)] at hleast
      linarith

theorem Plain.dominant (h : e.Plain)
    (hleast : entry.priority ≠ .p0 → ∀ z, e.pull x entry v ≤ e.pull x entry z)
    {others : List (Definition Rat)} (hperm : (e.acting x).Perm (d :: others))
    (hstrong : entry.priority.weight + (others.map fun d => d.priority.weight).sum
      < d.priority.weight) : d.Holds fun _ => v := by
  by_cases hp : entry.priority = .p0
  · -- nothing is stronger than what is required
    have hnonneg : 0 ≤ (others.map fun d => d.priority.weight).sum := by
      refine List.sum_nonneg fun w hw => ?_
      obtain ⟨d', -, rfl⟩ := List.mem_map.1 hw
      exact d'.priority.weight_nonneg
    have hle := d.priority.weight_le_p0
    rw [hp] at hstrong
    linarith
  · exact h.holds_of_least (hleast hp) hperm hstrong

theorem Plain.raised (h : e.Plain) (hp : entry.priority = .p3)
    (hleast : entry.priority ≠ .p0 → ∀ z, e.pull x entry v ≤ e.pull x entry z) {low : Rat}
    (hacting : e.acting x = [d]) (hd : d.priority = .p1)
    (hb : d.bound? = some ⟨x, .atLeast, low⟩) : v = max low entry.target := by
  have hlow : low ≤ v := by
    refine (Definition.holds_of_bound hb).1 (h.dominant hleast (List.Perm.of_eq hacting) ?_)
    rw [hp, hd, List.map_nil, List.sum_nil, Priority.weight_p3, Priority.weight_p1]
    norm_num
  have hpull (z : Rat) (hz : low ≤ z) : e.pull x entry z = 100000 * |z - entry.target| := by
    have hmet : d.violation (fun _ => z) = 0 :=
      Definition.holds_iff_violation.1 ((Definition.holds_of_bound hb).2 hz)
    rw [pull, hacting, hp, Priority.weight_p3, List.map_singleton, List.sum_singleton, hmet,
      mul_zero, add_zero]
  refine eq_raised hlow ?_
  have hle := hleast (by rw [hp]; decide) (max low entry.target)
  rw [hpull v hlow, hpull _ (le_max_left _ _)] at hle
  linarith

theorem Plain.clamped (h : e.Plain) (hp : entry.priority = .p3)
    (hleast : entry.priority ≠ .p0 → ∀ z, e.pull x entry v ≤ e.pull x entry z)
    {d' : Definition Rat} {low high : Rat} (hperm : (e.acting x).Perm [d, d'])
    (hd : d.priority = .p1) (hb : d.bound? = some ⟨x, .atLeast, low⟩) (hd' : d'.priority = .p2)
    (hb' : d'.bound? = some ⟨x, .atMost, high⟩) : v = max low (min high entry.target) := by
  have hlow : low ≤ v := by
    refine (Definition.holds_of_bound hb).1 (h.dominant hleast hperm ?_)
    rw [hp, hd, List.map_singleton, List.sum_singleton, hd', Priority.weight_p3, Priority.weight_p2,
      Priority.weight_p1]
    norm_num
  have hpull (z : Rat) (hz : low ≤ z) :
      e.pull x entry z = 100000 * |z - entry.target| + 10000000 * max (z - high) 0 := by
    have hmet : d.violation (fun _ => z) = 0 :=
      Definition.holds_iff_violation.1 ((Definition.holds_of_bound hb).2 hz)
    rw [pull, (hperm.map _).sum_eq, hp, Priority.weight_p3, List.map_cons, List.sum_cons, hmet,
      mul_zero, zero_add, List.map_singleton, List.sum_singleton, hd', Priority.weight_p2,
      Definition.violation_of_bound hb']
    rfl
  refine eq_clamped hlow ?_
  have hle := hleast (by rw [hp]; decide) (max low (min high entry.target))
  rwa [hpull v hlow, hpull _ (le_max_left _ _)] at hle

/-- What costs least is the closed form. -/
theorem Plain.closedForm (h : e.Plain) (hpinned : entry.priority = .p0 → v = entry.target)
    (hleast : entry.priority ≠ .p0 → ∀ z, e.pull x entry v ≤ e.pull x entry z) :
    e.ClosedForm x entry v where
  pinned := hpinned
  least := hleast
  dominant _ _ hperm hstrong := h.dominant hleast hperm hstrong
  raised _ _ hp hacting hd hb := h.raised hp hleast hacting hd hb
  clamped _ _ _ _ hp hperm hd hb hd' hb' := h.clamped hp hleast hperm hd hb hd' hb'

/-! ## Every history -/

/-- The values of a steady engine with bounds alone. -/
theorem Steady.closedForm (h : e.Steady) (hplain : e.Plain) {s : Solver Rat} (hs : e.solver = some s)
    (hx : e.vars.entries.get? x = some entry) :
    e.ClosedForm x entry (s.updateVariables.value x.backing) := by
  have htidy := h.tidy s hs
  have hzero := htidy.clean.dummiesZero
  have hrequired := (h.registered.required_iff htidy.toMirrors).2 hzero
  refine hplain.closedForm (hrequired.vars x entry hx) fun hp z => ?_
  obtain ⟨rest, hrest⟩ := hplain.cost_update hx hp fun x => s.updateVariables.value x.backing
  have hself := hrest (s.updateVariables.value x.backing)
  rw [Function.update_eq_self] at hself
  have hle := h.registered.cost_le htidy.toMirrors hzero
    (h.unforced.required_update hx hp hrequired z)
  rw [hself, hrest] at hle
  exact le_of_add_le_add_left hle

/-- In every run in which all constraints are bounds and none is ever required, an engine none
of whose loops has run out of steps has never lost its solver, and a read of a variable answers
the value that its target and the constraints that act on it make of it. -/
theorem preferences_solve_to_closed_form (id : EngineId) (options : EngineOptions)
    (history : List (Command Rat))
    (hplain : ∀ earlier, earlier <+: history → ((Engine.create id options).after earlier).Plain)
    (hsteps : ((Engine.create id options : Engine Rat).after history).health.lastError
      ≠ some .outOfSteps) :
    let e : Engine Rat := (Engine.create id options).after history
    e.isLive = true ∧ e.health.invalidations = 0 ∧
      ∀ x entry, e.vars.entries.get? x = some entry →
        ∃ v, ((Command.read x).perform e).1 = .ok (.number v) ∧ e.ClosedForm x entry v := by
  intro e
  have hsteady : e.Steady := (Steady.create id options).after history fun earlier hearlier =>
    (hplain earlier hearlier).unforced
  have hsettled : e.Settled :=
    Settled.after (lawful_create id options).settled (.create id options) history
  obtain ⟨-, hlive, hcount⟩ := hsteady.spared.resolve_left hsteps
  refine ⟨hlive, hcount, fun x entry hx => ?_⟩
  obtain ⟨s, hs⟩ := Option.isSome_iff_exists.1 hlive
  refine ⟨_, ?_, hsteady.closedForm (hplain history List.prefix_rfl) hs hx⟩
  have hvalue := hsettled.solvedValue_refresh hs x
  have hregistered : e.vars.entries.contains x = true :=
    OrderedMap.contains_iff.2 (OrderedMap.mem_keys_iff.2 ⟨entry, hx⟩)
  rw [if_pos hregistered] at hvalue
  obtain ⟨err, hrefusal, -⟩ | ⟨-, hperform, -⟩ := hsteady.registered.perform_cases (.read x)
  · rw [Command.refusal_of_known ((List.findSome?_singleton ..).trans
      (hsteady.registered.fault_known hx))] at hrefusal
    cases hrefusal
  · rw [hperform, ← hvalue]
    rfl

/-- A required variable between two bounds, one of which is stated the other way round. It is
read, given up to a preference and moved while its bounds are changed. -/
def retuned : List (Command Rat) :=
  let x : VariableId := ⟨⟨0⟩, 0⟩
  let low : ConstraintId := ⟨⟨0⟩, 0⟩
  let high : ConstraintId := ⟨⟨0⟩, 1⟩
  [.createVariable 5 .p0, .createConstraint ⟨.ofUnknown x, .atLeast, .ofConstant 20, .p1⟩ true,
    .createConstraint ⟨.ofConstant 90, .atLeast, .ofUnknown x, .p2⟩ true, .read x,
    .setVariablePriority x .p3, .setEnabled low false, .setLhs high (.ofConstant 60),
    .suggest x 100, .setEnabled low true, .read x]

/-- The upper bound outweighs the target. -/
theorem preferences_solve_to_closed_form_retuned :
    let x : VariableId := ⟨⟨0⟩, 0⟩
    let e : Engine Rat := (Engine.create ⟨0⟩ .default).after retuned
    (∀ earlier, earlier <+: retuned → ((Engine.create ⟨0⟩ .default : Engine Rat).after earlier).Plain) ∧
      e.health.lastError ≠ some .outOfSteps ∧ ((Command.read x).perform e).1 = .ok (.number 60) := by
  intro x e
  have hinits : ∀ earlier ∈ retuned.inits,
      ((Engine.create ⟨0⟩ .default : Engine Rat).after earlier).Plain := by decide +kernel
  have hplain (earlier : List (Command Rat)) (hearlier : earlier <+: retuned) :=
    hinits earlier ((List.mem_inits _ _).2 hearlier)
  have hsteps : ((Engine.create ⟨0⟩ .default : Engine Rat).after retuned).health.lastError
      ≠ some .outOfSteps := by decide +kernel
  have hentry : (((Engine.create ⟨0⟩ .default : Engine Rat).after retuned).vars.entries.get?
      ⟨⟨0⟩, 0⟩).map (fun entry => (entry.priority, entry.target)) = some (.p3, 100) := by
    decide +kernel
  have hacting : (((Engine.create ⟨0⟩ .default : Engine Rat).after retuned).acting ⟨⟨0⟩, 0⟩).map
      (fun d => (d.priority, d.bound?)) = [(.p1, some ⟨⟨⟨0⟩, 0⟩, .atLeast, 20⟩),
        (.p2, some ⟨⟨⟨0⟩, 0⟩, .atMost, 60⟩)] := by decide +kernel
  obtain ⟨entry, hx, hwanted⟩ := Option.map_eq_some_iff.1 hentry
  obtain ⟨hp, htarget⟩ := Prod.mk.inj hwanted
  obtain ⟨low, rest, hlist, hlow, hrest⟩ := List.map_eq_cons_iff.1 hacting
  obtain ⟨high, rfl, hhigh⟩ := List.map_eq_singleton_iff.1 hrest
  obtain ⟨hlowPriority, hlowBound⟩ := Prod.mk.inj hlow
  obtain ⟨hhighPriority, hhighBound⟩ := Prod.mk.inj hhigh
  obtain ⟨-, -, hread⟩ := preferences_solve_to_closed_form ⟨0⟩ .default retuned hplain hsteps
  obtain ⟨v, hv, hclosed⟩ := hread x entry hx
  have hvalue := hclosed.clamped low high 20 60 hp (by rw [hlist]) hlowPriority hlowBound
    hhighPriority hhighBound
  have hmax : max (20 : Rat) (min 60 entry.target) = 60 := by rw [htarget]; norm_num
  rw [hmax] at hvalue
  exact ⟨hplain, hsteps, hvalue ▸ hv⟩

end Engine

end BoxLayout
