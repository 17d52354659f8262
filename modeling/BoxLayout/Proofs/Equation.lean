-- SUMMARY: What a constraint demands of values, and the equation over its own symbols that stands for it.
import BoxLayout.Proofs.Shift
import BoxLayout.Solver

/-!
# Constraints as equations

In the tableau a constraint is an equation between the value of its expression and its
own symbols: a slack takes up the room that an inequality leaves, error symbols take up
what is missing, and a dummy marks an equality that has to hold exactly.

`Tag.Fits` says which symbols a constraint has. From there both directions between
values and symbols are shown: symbols with the right signs measure the violation from
above, and for any value there are symbols that measure it exactly.
-/

namespace BoxLayout

/-! ## Values -/

/-- How far a value is from standing in the relation to zero. -/
def Relation.violation : Relation → Rat → Rat
  | .equal, x => |x|
  | .atMost, x => max x 0
  | .atLeast, x => max (-x) 0

theorem Relation.violation_nonneg (r : Relation) (x : Rat) : 0 ≤ r.violation x := by
  cases r with
  | equal => exact abs_nonneg x
  | atMost => exact le_max_right x 0
  | atLeast => exact le_max_right (-x) 0

/-- What holds is not violated, and the other way round. -/
theorem Relation.violation_eq_zero_iff {r : Relation} {x : Rat} :
    r.violation x = 0 ↔ r.Holds x 0 := by
  cases r with
  | equal => exact abs_eq_zero
  | atMost => exact max_eq_right_iff
  | atLeast => exact max_eq_right_iff.trans neg_nonpos

namespace Tag

variable {t : Tag} {r : Relation} {required : Bool} {e : Rat} {v : Assignment} {s : Symbol}

/-! ## The symbols of a constraint -/

/-- The symbols that a constraint with this relation has, be it required or not. -/
inductive Fits : Relation → Bool → Tag → Prop where
  | dummy (n : Nat) : Fits .equal true ⟨⟨.dummy, n⟩, none⟩
  | errors (n m : Nat) (h : n ≠ m) : Fits .equal false ⟨⟨.error, n⟩, some ⟨.error, m⟩⟩
  | slack (r : Relation) (n : Nat) (h : r ≠ .equal) : Fits r true ⟨⟨.slack, n⟩, none⟩
  | slackError (r : Relation) (n m : Nat) (h : r ≠ .equal) :
      Fits r false ⟨⟨.slack, n⟩, some ⟨.error, m⟩⟩

namespace Fits

theorem marker_isExternal (h : Fits r required t) : t.marker.isExternal = false := by
  cases h with
  | dummy n => rfl
  | errors n m hne => rfl
  | slack r n hr => rfl
  | slackError r n m hr => rfl

theorem other_isError (h : Fits r required t) (ho : t.other = some s) : s.isError = true := by
  cases h with
  | dummy n => cases ho
  | errors n m hne =>
    obtain rfl := Option.some.inj ho
    rfl
  | slack r n hr => cases ho
  | slackError r n m hr =>
    obtain rfl := Option.some.inj ho
    rfl

theorem isExternal (h : Fits r required t) (hs : s ∈ t.symbols) : s.isExternal = false := by
  obtain rfl | ho := mem_symbols.1 hs
  · exact h.marker_isExternal
  · unfold Symbol.isExternal
    rw [of_decide_eq_true (h.other_isError ho)]
    rfl

theorem marker_ne_other (h : Fits r required t) (ho : t.other = some s) : t.marker ≠ s := by
  cases h with
  | dummy n => cases ho
  | errors n m hne =>
    obtain rfl := Option.some.inj ho
    intro heq
    exact hne (congrArg Symbol.number heq)
  | slack r n hr => cases ho
  | slackError r n m hr =>
    obtain rfl := Option.some.inj ho
    intro heq
    cases heq

/-- The symbols tell whether the constraint is required. -/
theorem not_required {r' : Relation} (h : Fits r true t) (h' : Fits r' false t) : False := by
  cases h with
  | dummy n => cases h'
  | slack r n hr => cases h'

/-- The symbols of an edit constraint are those of no other kind of constraint. -/
theorem of_edit (h : Fits r required t) (h' : Fits .equal false t) : r = .equal ∧ required = false := by
  cases h' with
  | errors n m hne =>
    cases h with
    | errors n m hne => exact ⟨rfl, rfl⟩
  | slackError r n m hr => exact absurd rfl hr

/-- A required constraint has no error symbol. -/
theorem errors_of_required (h : Fits r true t) : t.errors = [] := by
  cases h with
  | dummy n => rfl
  | slack r n hr => rfl

/-- Only a required equality has a dummy. -/
theorem of_isDummy (h : Fits r required t) (hs : s ∈ t.symbols) (hd : s.isDummy = true) :
    s = t.marker ∧ r = .equal ∧ required = true := by
  cases h with
  | dummy n => exact ⟨List.mem_singleton.1 hs, rfl, rfl⟩
  | errors n m hne =>
    obtain rfl | ho := mem_symbols.1 hs
    · cases hd
    · obtain rfl := Option.some.inj ho
      cases hd
  | slack r n hr =>
    obtain rfl := List.mem_singleton.1 hs
    cases hd
  | slackError r n m hr =>
    obtain rfl | ho := mem_symbols.1 hs
    · cases hd
    · obtain rfl := Option.some.inj ho
      cases hd

end Fits

/-! ## The equation -/

/-- The value of the other symbol, zero if there is none. -/
def otherValue (t : Tag) (v : Assignment) : Rat :=
  match t.other with
  | some s => v s
  | none => 0

/-- The equation that stands for a constraint whose expression has the value `e`. -/
def Equation (t : Tag) (r : Relation) (required : Bool) (e : Rat) (v : Assignment) : Prop :=
  match r, required with
  | .atMost, _ => e + v t.marker - t.otherValue v = 0
  | .atLeast, _ => e - v t.marker + t.otherValue v = 0
  | .equal, true => e + v t.marker = 0
  | .equal, false => e - v t.marker + t.otherValue v = 0

/-- What the symbols add to the expression. -/
def side (t : Tag) (r : Relation) (v : Assignment) : Rat := Entries.dot v (t.terms r)

/-- What the symbols that fit a constraint add to its expression: the room that an inequality
leaves, and the violations that the errors take up, with opposite signs. -/
def allowance (t : Tag) (r : Relation) (required : Bool) (v : Assignment) : Rat :=
  match r, required with
  | .atMost, _ => v t.marker - t.otherValue v
  | .atLeast, _ => t.otherValue v - v t.marker
  | .equal, true => v t.marker
  | .equal, false => t.otherValue v - v t.marker

theorem Fits.side_eq (h : Fits r required t) : t.side r v = t.allowance r required v := by
  unfold side allowance
  cases h with
  | dummy n => simp [terms]
  | errors n m hne =>
    simp only [terms, otherValue, Entries.dot_cons, Entries.dot_nil]
    ring
  | slack r n hr =>
    cases r with
    | equal => exact absurd rfl hr
    | atMost | atLeast =>
      simp only [terms, otherValue, Entries.dot_cons, Entries.dot_nil]
      ring
  | slackError r n m hr =>
    cases r with
    | equal => exact absurd rfl hr
    | atMost | atLeast =>
      simp only [terms, otherValue, Entries.dot_cons, Entries.dot_nil]
      ring

theorem Fits.equation_iff (h : Fits r required t) :
    t.Equation r required e v ↔ e + t.side r v = 0 := by
  have hiff {x y : Rat} (hxy : x = y) : x = 0 ↔ y = 0 := by rw [hxy]
  rw [h.side_eq]
  unfold Equation allowance
  cases r with
  | atMost | atLeast => exact hiff (by ring)
  | equal =>
    cases required with
    | true => exact Iff.rfl
    | false => exact hiff (by ring)

/-- Only its own symbols matter to the equation. -/
theorem side_congr {w : Assignment} (h : ∀ s ∈ t.symbols, v s = w s) (r : Relation) :
    t.side r v = t.side r w := by
  have hm : v t.marker = w t.marker := h _ t.marker_mem
  have ho (s : Symbol) (hs : t.other = some s) : v s = w s := h s (other_mem hs)
  unfold side terms
  cases hother : t.other with
  | none => cases r <;> simp [hm]
  | some s => cases r <;> simp [hm, ho s hother]

/-- The marker enters the equation with the coefficient one or minus one. -/
theorem Fits.side_marker (h : Fits r required t) :
    ∃ k : Rat, k ≠ 0 ∧ ∀ v x, t.side r (Function.update v t.marker x)
      = t.side r v + k * (x - v t.marker) := by
  unfold side
  cases h with
  | dummy n =>
    refine ⟨1, one_ne_zero, fun v x => ?_⟩
    simp only [terms, Entries.dot_cons, Entries.dot_nil, Function.update_self]
    ring
  | errors n m hne =>
    have hmn : (⟨.error, m⟩ : Symbol) ≠ ⟨.error, n⟩ := fun heq => hne (congrArg Symbol.number heq).symm
    refine ⟨-1, by norm_num, fun v x => ?_⟩
    simp only [terms, Entries.dot_cons, Entries.dot_nil, Function.update_self,
      Function.update_of_ne hmn]
    ring
  | slack r n hr =>
    cases r with
    | equal => exact absurd rfl hr
    | atMost =>
      refine ⟨1, one_ne_zero, fun v x => ?_⟩
      simp only [terms, Entries.dot_cons, Entries.dot_nil, Function.update_self]
      ring
    | atLeast =>
      refine ⟨-1, by norm_num, fun v x => ?_⟩
      simp only [terms, Entries.dot_cons, Entries.dot_nil, Function.update_self]
      ring
  | slackError r n m hr =>
    have hmn : (⟨.error, m⟩ : Symbol) ≠ ⟨.slack, n⟩ := fun heq => by cases heq
    cases r with
    | equal => exact absurd rfl hr
    | atMost =>
      refine ⟨1, one_ne_zero, fun v x => ?_⟩
      simp only [terms, Entries.dot_cons, Entries.dot_nil, Function.update_self,
        Function.update_of_ne hmn]
      ring
    | atLeast =>
      refine ⟨-1, by norm_num, fun v x => ?_⟩
      simp only [terms, Entries.dot_cons, Entries.dot_nil, Function.update_self,
        Function.update_of_ne hmn]
      ring

/-! ## From symbols to values -/

/-- What the error symbols add up to. -/
def shortfall (t : Tag) (v : Assignment) : Rat := (t.errors.map v).sum

theorem shortfall_errors (n m : Nat) (v : Assignment) :
    shortfall ⟨⟨.error, n⟩, some ⟨.error, m⟩⟩ v = v ⟨.error, n⟩ + v ⟨.error, m⟩ := by
  simp [shortfall, errors, symbols, Symbol.isError]

theorem shortfall_slackError (n m : Nat) (v : Assignment) :
    shortfall ⟨⟨.slack, n⟩, some ⟨.error, m⟩⟩ v = v ⟨.error, m⟩ := by
  simp [shortfall, errors, symbols, Symbol.isError]

theorem Fits.shortfall_of_required (h : Fits r true t) (v : Assignment) : t.shortfall v = 0 := by
  rw [shortfall, h.errors_of_required]
  rfl

/-- Where the signs are right, a required constraint holds. -/
theorem Fits.holds (h : Fits r true t) (heq : t.Equation r true e v) (hv : Admissible v) :
    r.Holds e 0 := by
  cases h with
  | dummy n =>
    have hzero : v ⟨.dummy, n⟩ = 0 := hv.dummy _ rfl
    simp only [Equation, hzero] at heq
    change e = 0
    linarith
  | slack r n hr =>
    have hpos : 0 ≤ v ⟨.slack, n⟩ := hv.nonneg _ rfl
    cases r with
    | equal => exact absurd rfl hr
    | atMost =>
      simp only [Equation, otherValue] at heq
      change e ≤ 0
      linarith
    | atLeast =>
      simp only [Equation, otherValue] at heq
      change 0 ≤ e
      linarith

/-- The error symbols are not less than the violation. -/
theorem Fits.violation_le (h : Fits r false t) (heq : t.Equation r false e v) (hv : Nonneg v) :
    r.violation e ≤ t.shortfall v := by
  cases h with
  | errors n m hne =>
    have hn : 0 ≤ v ⟨.error, n⟩ := hv _ rfl
    have hm : 0 ≤ v ⟨.error, m⟩ := hv _ rfl
    simp only [Equation, otherValue] at heq
    rw [shortfall_errors]
    change |e| ≤ _
    rw [abs_le]
    constructor <;> linarith
  | slackError r n m hr =>
    have hn : 0 ≤ v ⟨.slack, n⟩ := hv _ rfl
    have hm : 0 ≤ v ⟨.error, m⟩ := hv _ rfl
    rw [shortfall_slackError]
    cases r with
    | equal => exact absurd rfl hr
    | atMost =>
      simp only [Equation, otherValue] at heq
      exact max_le (by linarith) hm
    | atLeast =>
      simp only [Equation, otherValue] at heq
      exact max_le (by linarith) hm

/-! ## From values to symbols -/

/-- The marker's value that goes with the value of the expression. -/
def markerFor : Relation → Rat → Rat
  | .atMost, e => max (-e) 0
  | .equal, e | .atLeast, e => max e 0

/-- The other symbol's value that goes with the value of the expression. -/
def otherFor : Relation → Rat → Rat
  | .atMost, e => max e 0
  | .equal, e | .atLeast, e => max (-e) 0

theorem markerFor_nonneg (r : Relation) (e : Rat) : 0 ≤ markerFor r e := by
  cases r <;> exact le_max_right _ _

theorem otherFor_nonneg (r : Relation) (e : Rat) : 0 ≤ otherFor r e := by
  cases r <;> exact le_max_right _ _

theorem max_sub_max_neg (e : Rat) : max e 0 - max (-e) 0 = e := by
  rcases le_total 0 e with he | he
  · rw [max_eq_left he, max_eq_right (by linarith), sub_zero]
  · rw [max_eq_right he, max_eq_left (by linarith)]
    ring

theorem max_add_max_neg (e : Rat) : max e 0 + max (-e) 0 = |e| := by
  rcases le_total 0 e with he | he
  · rw [max_eq_left he, max_eq_right (by linarith), add_zero, abs_of_nonneg he]
  · rw [max_eq_right he, max_eq_left (by linarith), zero_add, abs_of_nonpos he]

/-- With these values the equation holds, if a required constraint does. -/
theorem Fits.equation_of_values (h : Fits r required t) (hm : v t.marker = markerFor r e)
    (ho : ∀ s, t.other = some s → v s = otherFor r e) (hreq : required = true → r.Holds e 0) :
    t.Equation r required e v := by
  have hsplit := max_sub_max_neg e
  cases h with
  | dummy n =>
    have hzero : e = 0 := hreq rfl
    simp only [Equation, hm, hzero, markerFor, max_self, add_zero]
  | errors n m hne =>
    simp only [Equation, otherValue, hm, ho _ rfl, markerFor, otherFor]
    linarith
  | slack r n hr =>
    cases r with
    | equal => exact absurd rfl hr
    | atMost =>
      have hle : e ≤ 0 := hreq rfl
      simp only [Equation, otherValue, hm, markerFor, max_eq_left (neg_nonneg.2 hle)]
      ring
    | atLeast =>
      have hle : 0 ≤ e := hreq rfl
      simp only [Equation, otherValue, hm, markerFor, max_eq_left hle]
      ring
  | slackError r n m hr =>
    cases r with
    | equal => exact absurd rfl hr
    | atMost | atLeast =>
      simp only [Equation, otherValue, hm, ho _ rfl, markerFor, otherFor]
      linarith

/-- With these values the error symbols add up to the violation. -/
theorem Fits.shortfall_of_values (h : Fits r false t) (hm : v t.marker = markerFor r e)
    (ho : ∀ s, t.other = some s → v s = otherFor r e) : t.shortfall v = r.violation e := by
  cases h with
  | errors n m hne =>
    rw [shortfall_errors, hm, ho _ rfl]
    exact max_add_max_neg e
  | slackError r n m hr =>
    rw [shortfall_slackError, ho _ rfl]
    cases r with
    | equal => exact absurd rfl hr
    | atMost | atLeast => rfl

end Tag

end BoxLayout
