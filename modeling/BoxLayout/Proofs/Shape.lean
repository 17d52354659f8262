-- SUMMARY: The shape of a tableau over any arithmetic: what its pivots and its loops keep however they end.
import BoxLayout.Proofs.Ensures
import BoxLayout.Proofs.Symbols

/-!
# The shape of a tableau

Three things hold of a tableau whatever its numbers are: it mentions only symbols that
were issued, the number of a symbol tells it apart from all others, and no basic symbol
occurs in a row or in an objective. `Shaped` says so for a given set of issued symbols.

Substituting a non-basic row keeps the shape, so a pivot does, and the loops do in every
state in which they may stop. A pivot is never refused: what the searches find occurs in
the row that they found it for.
-/

namespace BoxLayout

/-- A fault of the solver's own bookkeeping: a pivot or a constraint that it has just chosen or
added is not there. -/
def SolverError.isLapse (e : SolverError) : Bool :=
  e = .internal .pivotMissing || e = .internal .editMissing

namespace Attempt

variable {σ β : Type} {m : Attempt SolverError σ β} {I J : σ → Prop} {s : σ}

/-- However the attempt ends, the state it leaves is in `I`, and it does not lapse. -/
def Upholds (m : Attempt SolverError σ β) (I : σ → Prop) (s : σ) : Prop :=
  m.Ensures s (fun _ t => I t) fun e t => I t ∧ e.isLapse = false

theorem Upholds.mono (h : m.Upholds I s) (hI : ∀ t, I t → J t) : m.Upholds J s :=
  Ensures.mono h (fun _ t ht => hI t ht) fun _ t he => ⟨hI t he.1, he.2⟩

/-- What an attempt that cannot fail leaves. -/
theorem upholds_of_ok (h : m.Ensures s (fun _ t => I t) fun _ _ => False) : m.Upholds I s :=
  h.mono (fun _ _ ht => ht) fun _ _ hf => hf.elim

theorem upholds_loop {step : Attempt SolverError σ Bool} (hstep : ∀ s, I s → step.Upholds I s)
    (n : Nat) (hs : I s) : (loop step .outOfSteps n).Upholds I s := by
  refine ensures_loop (fun t ht => ?_) (fun t ht => ⟨ht, rfl⟩) n hs
  refine Ensures.mono (hstep t ht) (fun more u hu => ?_) fun _ _ he => he
  rw [ite_self]
  exact hu

end Attempt

/-- What is asked of the arithmetic: one and minus one do not count as zero when they are
computed, and zero is not below itself but equal to itself. -/
structure Scalar.Discerning (α : Type) [Scalar α] : Prop where
  one : nearZero (0 + 1 : α) = false
  minusOne : nearZero (0 + -1 : α) = false
  lt_irrefl : ¬(0 : α) < 0
  zero_beq : ((0 : α) == 0) = true

namespace Tableau

open Attempt

variable {α : Type} {t u : Tableau α} {P Q issued : Symbol → Prop} {s x leaving entering : Symbol}
  {row : Row α}

/-! ## The rows of a tableau -/

/-- Every symbol in a row or in an objective satisfies `P`. -/
structure Over (P : Symbol → Prop) (t : Tableau α) : Prop where
  rows : ∀ b row, t.rows.get? b = some row → row.Over P
  objective : t.objective.Over P
  artificial : ∀ row, t.artificial = some row → row.Over P

theorem Over.mono (h : t.Over P) (hPQ : ∀ x, P x → Q x) : t.Over Q where
  rows b row hb := (h.rows b row hb).mono hPQ
  objective := h.objective.mono hPQ
  artificial row ha := (h.artificial row ha).mono hPQ

theorem Over.congr (h : t.Over P) (hrows : u.rows = t.rows) (hobjective : u.objective = t.objective)
    (hartificial : u.artificial = t.artificial) : u.Over P where
  rows b row hb := h.rows b row (by rw [← hrows]; exact hb)
  objective := by rw [hobjective]; exact h.objective
  artificial row ha := h.artificial row (by rw [← hartificial]; exact ha)

theorem Over.setRow (h : t.Over P) (hrow : row.Over P) (s : Symbol) : (t.setRow s row).Over P where
  rows b r hb := by
    obtain ⟨-, rfl⟩ | hb := OrderedMap.get?_insert_cases hb
    · exact hrow
    · exact h.rows b r hb
  objective := h.objective
  artificial := h.artificial

theorem Over.dropRow (h : t.Over P) (s : Symbol) : (t.dropRow s).Over P where
  rows b r hb := h.rows b r (get?_of_dropRow hb).2
  objective := h.objective
  artificial := h.artificial

theorem Over.substitute [Scalar α] (h : t.Over P) (hkeep : ∀ x, P x → x ≠ s → Q x)
    (hrow : row.Over Q) : (t.substitute s row).Over Q where
  rows b r hb := by
    obtain ⟨r₀, hr₀, rfl⟩ := get?_substitute_eq_some hb
    exact (h.rows b r₀ hr₀).substitute hkeep hrow
  objective := h.objective.substitute hkeep hrow
  artificial r ha := by
    obtain ⟨r₀, hr₀, rfl⟩ := Option.map_eq_some_iff.1 ha
    exact (h.artificial r₀ hr₀).substitute hkeep hrow

/-! ## Shapes -/

/-- An issued symbol that no row belongs to. -/
def Nonbasic (t : Tableau α) (issued : Symbol → Prop) (x : Symbol) : Prop :=
  issued x ∧ x ∉ t.rows.keys

/-- The tableau is over the issued symbols, which their numbers tell apart, and its rows
are over the non-basic ones among them. -/
structure Shaped (issued : Symbol → Prop) (t : Tableau α) : Prop where
  numbered : ∀ x, issued x → x.number ≤ t.symbolCount
  single : ∀ x y, issued x → issued y → x.number = y.number → x = y
  basic : ∀ b ∈ t.rows.keys, issued b
  waiting : ∀ b ∈ t.infeasible, issued b
  cells : t.Over (t.Nonbasic issued)

/-- The tableau has its shape over these symbols and perhaps more. -/
def Outgrows (issued : Symbol → Prop) (t : Tableau α) : Prop :=
  ∃ issued', (∀ x, issued x → issued' x) ∧ t.Shaped issued'

theorem Nonbasic.ne (h : t.Nonbasic issued x) (hs : s ∈ t.rows.keys) : x ≠ s :=
  fun e => h.2 (e ▸ hs)

theorem nonbasic_congr (h : u.rows.keys = t.rows.keys) : u.Nonbasic issued = t.Nonbasic issued := by
  unfold Nonbasic
  rw [h]

theorem shaped_empty [Scalar α] : (empty : Tableau α).Shaped fun _ => False where
  numbered _ h := h.elim
  single _ _ h := h.elim
  basic _ h := absurd h List.not_mem_nil
  waiting _ h := absurd h List.not_mem_nil
  cells := ⟨fun _ _ h => (by cases h), Row.over_ofConstant _, fun _ h => (by cases h)⟩

namespace Shaped

theorem outgrows {issued' : Symbol → Prop} (h : u.Shaped issued')
    (hmore : ∀ x, issued x → issued' x) : u.Outgrows issued := ⟨issued', hmore, h⟩

/-- New symbols are numbered on from the last number. -/
theorem issue (h : t.Shaped issued) {new : List Symbol} {n : Nat}
    (hnew : ∀ x ∈ new, t.symbolCount < x.number ∧ x.number ≤ n) (hn : t.symbolCount ≤ n)
    (hapart : (new.map Symbol.number).Nodup) :
    ({ t with symbolCount := n } : Tableau α).Shaped fun x => x ∈ new ∨ issued x where
  numbered x hx := hx.elim (fun hx => (hnew x hx).2) fun hx => Nat.le_trans (h.numbered x hx) hn
  single x y hx hy heq := by
    have hlate {x y : Symbol} (hx : x ∈ new) (hy : issued y) : x.number ≠ y.number := by
      have hx := (hnew x hx).1
      have hy := h.numbered y hy
      omega
    obtain hx | hx := hx
    · obtain hy | hy := hy
      · exact List.inj_on_of_nodup_map hapart hx hy heq
      · exact absurd heq (hlate hx hy)
    · obtain hy | hy := hy
      · exact absurd heq.symm (hlate hy hx)
      · exact h.single x y hx hy heq
  basic b hb := Or.inr (h.basic b hb)
  waiting b hb := Or.inr (h.waiting b hb)
  cells := (h.cells.mono fun _ hx => ⟨Or.inr hx.1, hx.2⟩).congr rfl rfl rfl

theorem fresh (h : t.Shaped issued) (kind : SymbolKind) :
    (t.fresh kind).2.Shaped fun x => x ∈ [(t.fresh kind).1] ∨ issued x :=
  h.issue (fun x hx => by
    obtain rfl := List.mem_singleton.1 hx
    exact ⟨Nat.lt_succ_self _, Nat.le_refl _⟩) (Nat.le_succ _) (List.pairwise_singleton _ _)

/-- The symbols of a constraint are issued together, and none of them was before. -/
theorem freshTag (h : t.Shaped issued) (r : Relation) (required : Bool) :
    (t.freshTag r required).2.Shaped (fun x => x ∈ (t.freshTag r required).1.symbols ∨ issued x) ∧
      (∀ x ∈ (t.freshTag r required).1.symbols, ¬issued x) ∧
      (t.freshTag r required).1.symbols.Nodup ∧ (t.freshTag r required).2.rows = t.rows := by
  obtain ⟨hnumbers, hapart, hrest⟩ := t.freshTag_numbers r required
  generalize t.freshTag r required = made at hnumbers hapart hrest ⊢
  obtain ⟨tag, u⟩ := made
  dsimp only at hnumbers hapart hrest ⊢
  have hcount : t.symbolCount ≤ u.symbolCount :=
    Nat.le_trans (Nat.le_of_lt (hnumbers _ tag.marker_mem).1) (hnumbers _ tag.marker_mem).2
  refine ⟨?_, fun x hx hold => ?_, List.Nodup.of_map _ hapart, by rw [hrest]⟩
  · rw [hrest]
    exact h.issue hnumbers hcount hapart
  · exact absurd (h.numbered x hold) (Nat.not_le.2 (hnumbers x hx).1)

theorem queue (h : t.Shaped issued) {ss : List Symbol} (hss : ∀ b ∈ ss, issued b) :
    (t.queue ss).Shaped issued :=
  { h with
    waiting := fun b hb => by
      obtain hb | hb := List.mem_append.1 hb
      · exact hss b (List.mem_reverse.1 hb)
      · exact h.waiting b hb
    cells := h.cells.congr rfl rfl rfl }

theorem withObjective (h : t.Shaped issued) (hrow : row.Over (t.Nonbasic issued)) :
    ({ t with objective := row } : Tableau α).Shaped issued :=
  { h with cells := ⟨h.cells.rows, hrow, h.cells.artificial⟩ }

theorem withArtificial (h : t.Shaped issued) {goal : Option (Row α)}
    (hgoal : ∀ row, goal = some row → row.Over (t.Nonbasic issued)) :
    ({ t with artificial := goal } : Tableau α).Shaped issued :=
  { h with cells := ⟨h.cells.rows, h.cells.objective, hgoal⟩ }

theorem setRow (h : t.Shaped issued) (hs : issued s)
    (hcells : t.Over fun x => t.Nonbasic issued x ∧ x ≠ s)
    (hrow : row.Over fun x => t.Nonbasic issued x ∧ x ≠ s) : (t.setRow s row).Shaped issued where
  numbered := h.numbered
  single := h.single
  basic b hb := by
    obtain rfl | hb := OrderedMap.mem_keys_insert.1 hb
    · exact hs
    · exact h.basic b hb
  waiting := h.waiting
  cells := (hcells.setRow hrow s).mono fun x hx => ⟨hx.1.1, fun hmem => by
    obtain heq | hmem := OrderedMap.mem_keys_insert.1 hmem
    · exact hx.2 heq
    · exact hx.1.2 hmem⟩

theorem dropRow (h : t.Shaped issued) (s : Symbol) : (t.dropRow s).Shaped issued where
  numbered := h.numbered
  single := h.single
  basic b hb := h.basic b (mem_keys_dropRow.1 hb).2
  waiting := h.waiting
  cells := (h.cells.dropRow s).mono fun _ hx => ⟨hx.1, fun hmem => hx.2 (mem_keys_dropRow.1 hmem).2⟩

/-- Every row may change as long as it stays over non-basic symbols. -/
theorem mapRows (h : t.Shaped issued) {f : Row α → Row α}
    (hf : ∀ r : Row α, r.Over (t.Nonbasic issued) → (f r).Over (t.Nonbasic issued)) :
    ({ t with rows := t.rows.mapValues fun _ row => f row } : Tableau α).Shaped issued := by
  have hkeys : (t.rows.mapValues fun _ row => f row).keys = t.rows.keys := OrderedMap.keys_mapValues _ _
  refine { h with basic := by rw [hkeys]; exact h.basic, cells := ?_ }
  rw [nonbasic_congr hkeys]
  refine ⟨fun b r hb => ?_, h.cells.objective, h.cells.artificial⟩
  rw [OrderedMap.get?_mapValues] at hb
  obtain ⟨r₀, hr₀, rfl⟩ := Option.map_eq_some_iff.1 hb
  exact hf r₀ (h.cells.rows b r₀ hr₀)

theorem forget (h : t.Shaped issued) (s : Symbol) : (t.forget s).Shaped issued := by
  have hremove (r : Row α) (hr : r.Over (t.Nonbasic issued)) : (r.remove s).Over (t.Nonbasic issued) :=
    (hr.remove s).mono fun _ hx => hx.1
  have hobjective : (t.objective.remove s).Over ((t.forget s).Nonbasic issued) := by
    rw [nonbasic_congr keys_forget]
    exact hremove t.objective h.cells.objective
  exact (h.mapRows hremove).withObjective hobjective

variable [Scalar α]

/-- Rows over non-basic symbols stay so when one is replaced by another such row. -/
theorem substitute (h : t.Shaped issued) (hrow : row.Over (t.Nonbasic issued)) :
    (t.substitute s row).Shaped issued := by
  refine { h with basic := ?_, waiting := ?_, cells := ?_ }
  · rw [keys_substitute]
    exact h.basic
  · intro b hb
    obtain hb | hb := List.mem_append.1 hb
    · obtain ⟨e, he, rfl⟩ := List.mem_map.1 (List.mem_reverse.1 hb)
      refine h.basic e.1 ?_
      rw [← keys_substitute t s row]
      exact List.mem_map.2 ⟨e, List.mem_of_mem_filter he, rfl⟩
    · exact h.waiting b hb
  · rw [nonbasic_congr (keys_substitute t s row)]
    exact h.cells.substitute (fun x hx _ => hx) hrow

/-- A non-basic symbol becomes basic by a row that does not mention it. -/
theorem install (h : t.Shaped issued) (hs : issued s)
    (hrow : row.Over fun x => t.Nonbasic issued x ∧ x ≠ s) : (t.install s row).Shaped issued := by
  have hsub := h.substitute (s := s) (hrow.mono fun x hx => hx.1)
  refine hsub.setRow hs ?_ ?_
  · rw [nonbasic_congr (keys_substitute t s row)]
    exact h.cells.substitute (fun x hx hne => ⟨hx, hne⟩) hrow
  · rw [nonbasic_congr (keys_substitute t s row)]
    exact hrow

/-- A symbol with its multiple keeps a row over non-basic symbols, basic or not. -/
theorem addTo (h : t.Shaped issued) (hrow : row.Over (t.Nonbasic issued)) (hs : issued s) (k : α) :
    (t.addTo row s k).Over (t.Nonbasic issued) := by
  unfold Tableau.addTo
  cases hbasic : t.rows.get? s with
  | some basic => exact hrow.addRow (h.cells.rows s basic hbasic) k
  | none => exact hrow.addSymbol ⟨hs, OrderedMap.get?_eq_none_iff.1 hbasic⟩ k

theorem addToObjective (h : t.Shaped issued) (hs : issued s) (k : α) :
    (t.addToObjective s k).Shaped issued :=
  h.withObjective (h.addTo h.cells.objective hs k)

/-! ## Moving a target -/

theorem shiftRow (h : t.Shaped issued) (hrow : t.rows.get? s = some row) (d : α) :
    (t.shiftRow s row d).Shaped issued := by
  have hs : issued s := h.basic s (mem_keys hrow)
  have hne {x : Symbol} (hx : t.Nonbasic issued x) : t.Nonbasic issued x ∧ x ≠ s :=
    ⟨hx, hx.ne (mem_keys hrow)⟩
  have hset : (t.setRow s (row.addConstant d)).Shaped issued :=
    h.setRow hs (h.cells.mono fun x hx => hne hx) ((h.cells.rows s row hrow).mono fun x hx => hne hx)
  unfold Tableau.shiftRow
  dsimp only
  split
  · exact hset.queue fun b hb => by rwa [List.mem_singleton.1 hb]
  · exact hset

theorem shiftEdit (h : t.Shaped issued) (tag : Tag) (d : α) : (t.shiftEdit tag d).Shaped issued := by
  unfold Tableau.shiftEdit
  split
  · next row hrow => exact h.shiftRow hrow (-d)
  · next other row hother =>
    obtain ⟨s, -, hs⟩ := Option.bind_eq_some_iff.1 hother
    obtain ⟨row', hrow, heq⟩ := Option.map_eq_some_iff.1 hs
    obtain ⟨rfl, rfl⟩ := Prod.mk.inj heq
    exact h.shiftRow hrow d
  · have hmoved (r : Row α) (hr : r.Over (t.Nonbasic issued)) :
        ((if r.coefficient tag.marker == 0 then none
          else some (r.addConstant (d * r.coefficient tag.marker))).getD r).Over (t.Nonbasic issued) := by
      split
      · exact hr
      · exact hr
    refine (h.mapRows hmoved).queue fun b hb => ?_
    obtain ⟨e, he, rfl⟩ := List.mem_map.1 hb
    exact h.basic e.1 (mem_keys (get?_of_mem (List.mem_of_mem_filter he)))

/-! ## Pivots -/

/-- A basic symbol can be exchanged for every symbol of its row. -/
theorem exchange (h : t.Shaped issued) (hrow : t.rows.get? leaving = some row)
    (hs : entering ∈ row.cells.keys) : ∃ solved, row.exchange leaving entering = .ok solved ∧
      solved.Over fun x => (t.dropRow leaving).Nonbasic issued x ∧ x ≠ entering := by
  have hover := h.cells.rows leaving row hrow
  have hleaving := mem_keys hrow
  obtain ⟨solved, hsolved, hkeys⟩ := hover.exchange hs ((hover entering hs).ne hleaving)
  refine ⟨solved, hsolved, hkeys.mono fun x hx => ⟨?_, hx.2⟩⟩
  obtain hx | rfl := hx.1
  · exact ⟨hx.1, fun hmem => hx.2 (mem_keys_dropRow.1 hmem).2⟩
  · exact ⟨h.basic x hleaving, fun hmem => (mem_keys_dropRow.1 hmem).1 rfl⟩

theorem pivot (h : t.Shaped issued) (hrow : t.rows.get? leaving = some row)
    (hs : entering ∈ row.cells.keys) :
    (Tableau.pivot leaving row entering).Ensures (t.dropRow leaving)
      (fun _ u => u.Shaped issued) fun _ _ => False := by
  obtain ⟨solved, hsolved, hkeys⟩ := h.exchange hrow hs
  unfold Tableau.pivot
  rw [hsolved]
  exact (h.dropRow leaving).install (h.cells.rows leaving row hrow entering hs).1 hkeys

/-! ## The loops -/

theorem primalStep (h : t.Shaped issued) (hlt : ¬(0 : α) < 0) (goal : Goal) :
    (Tableau.primalStep goal).Upholds (Shaped issued) t := by
  refine ensures_get_bind ?_
  split
  · exact h
  · next entering _ =>
    split
    · exact ⟨h, rfl⟩
    · next leaving row hleaving =>
      obtain ⟨hrow, hs⟩ := mem_of_leavingRow? hlt hleaving
      refine ensures_modify_bind (ensures_bind ?_)
      exact upholds_of_ok (h.pivot hrow hs)

theorem optimize (h : t.Shaped issued) (hlt : ¬(0 : α) < 0) (goal : Goal) (steps : Nat) :
    (Tableau.optimize goal steps).Upholds (Shaped issued) t :=
  upholds_loop (fun _ hu => hu.primalStep hlt goal) steps h

theorem dualStep (h : t.Shaped issued) :
    (Tableau.dualStep : Attempt SolverError (Tableau α) Bool).Upholds (Shaped issued) t := by
  refine ensures_get_bind ?_
  split
  · exact h
  · next leaving waiting hwaiting =>
    have hrest : ({ t with infeasible := waiting } : Tableau α).Shaped issued :=
      { h with
        waiting := fun b hb => h.waiting b (by rw [hwaiting]; exact List.mem_cons_of_mem _ hb)
        cells := h.cells.congr rfl rfl rfl }
    refine ensures_set_bind ?_
    split
    · exact hrest
    · next row hrow =>
      split
      · split
        · exact ⟨hrest, rfl⟩
        · next entering hentering =>
          refine ensures_modify_bind (ensures_bind ?_)
          exact upholds_of_ok (hrest.pivot hrow (mem_of_enteringSymbol? hentering))
      · exact hrest

theorem restore (h : t.Shaped issued) (steps : Nat) :
    (Tableau.restore steps : Attempt SolverError (Tableau α) Unit).Upholds (Shaped issued) t :=
  upholds_loop (fun _ hu => hu.dualStep) steps h

/-! ## Adding and removing rows -/

/-- The artificial symbol is pivoted out by any symbol of its row, so a row that is added
this way is never refused for a missing symbol. -/
theorem addArtificially (h : t.Shaped issued) (hlt : ¬(0 : α) < 0)
    (hrow : row.Over (t.Nonbasic issued)) (steps : Nat) :
    (Tableau.addArtificially steps row).Upholds (Outgrows issued) t := by
  let art := (t.fresh .slack).1
  let issued' := fun x => x ∈ [art] ∨ issued x
  have hfresh : (t.fresh .slack).2.Shaped issued' := h.fresh .slack
  have hart : issued' art := Or.inl (List.mem_singleton_self art)
  have hne {x : Symbol} (hx : t.Nonbasic issued x) :
      (t.fresh .slack).2.Nonbasic issued' x ∧ x ≠ art := by
    refine ⟨⟨Or.inr hx.1, hx.2⟩, ?_⟩
    rintro rfl
    exact absurd (h.numbered art hx.1) (Nat.not_succ_le_self _)
  have hset := hfresh.setRow hart ((h.cells.mono fun x hx => hne hx).congr rfl rfl rfl)
    (hrow.mono fun x hx => hne hx)
  have hstart : ({ (t.fresh .slack).2.setRow art row with artificial := some row } : Tableau α).Shaped
      issued' := by
    refine hset.withArtificial fun goal hgoal => ?_
    obtain rfl := Option.some.inj hgoal
    refine hrow.mono fun x hx => ⟨Or.inr hx.1, fun hmem => ?_⟩
    obtain heq | hmem := OrderedMap.mem_keys_insert.1 hmem
    · exact (hne hx).2 heq
    · exact hx.2 hmem
  have hout {u : Tableau α} (hu : u.Shaped issued') : u.Outgrows issued := hu.outgrows fun _ => Or.inr
  refine ensures_modifyGet_bind (ensures_modify_bind (ensures_bind ?_))
  refine Ensures.mono (hstart.optimize hlt .artificial steps) ?_ fun _ _ he => ⟨hout he.1, he.2⟩
  intro _ u hu
  have hclear : ({ u with artificial := none } : Tableau α).Shaped issued' :=
    hu.withArtificial fun _ hgoal => (by cases hgoal)
  refine ensures_get_bind (ensures_modify_bind (ensures_get_bind ?_))
  split
  · exact hout (hclear.forget art)
  · next left hleft =>
    refine ensures_modify_bind ?_
    split
    · exact hout (hclear.dropRow art)
    · split
      · exact hout (hclear.dropRow art)
      · next entering hentering =>
        refine ensures_bind ((hclear.pivot hleft (Row.mem_of_pivotable? hentering)).mono ?_
          fun _ _ hf => hf.elim)
        intro _ v hv
        exact hout (hv.forget art)

theorem solve (h : t.Shaped issued) (hrow : row.Over (t.Nonbasic issued)) (hs : s ∈ row.cells.keys) :
    (do let solved ← ofExcept (row.solveFor s)
        modify (Tableau.install s solved) : Attempt SolverError (Tableau α) Unit).Ensures t
      (fun _ u => u.Shaped issued) fun _ _ => False := by
  obtain ⟨solved, hsolved, hkeys⟩ := hrow.solveFor hs
  rw [hsolved]
  exact h.install (hrow s hs).1 hkeys

theorem enterRow (h : t.Shaped issued) (hlt : ¬(0 : α) < 0) (hrow : row.Over (t.Nonbasic issued))
    {tag : Tag} (hmarker : tag.marker ∈ row.cells.keys) (steps : Nat) :
    (Tableau.enterRow steps row tag).Upholds (Outgrows issued) t := by
  have hsame (u : Tableau α) (hu : u.Shaped issued) : u.Outgrows issued := hu.outgrows fun _ hx => hx
  unfold Tableau.enterRow
  split
  · next subject hsubject =>
    exact (upholds_of_ok (h.solve hrow (Row.mem_of_subject? hlt hsubject))).mono hsame
  · split
    · split
      · exact (upholds_of_ok (h.solve hrow hmarker)).mono hsame
      · exact ⟨hsame t h, rfl⟩
    · refine ensures_bind (Ensures.mono (h.addArtificially hlt hrow steps) (fun feasible u hu => ?_)
        fun _ _ he => he)
      cases feasible with
      | true => exact hu
      | false => exact ⟨hu, rfl⟩

theorem removeMarker (h : t.Shaped issued) (heq : ((0 : α) == 0) = true) (marker : Symbol) :
    (Tableau.removeMarker marker : Attempt SolverError (Tableau α) Unit).Upholds (Shaped issued) t := by
  refine ensures_get_bind ?_
  split
  · exact h.dropRow marker
  · split
    · exact ⟨h, rfl⟩
    · next leaving row hleaving =>
      obtain ⟨hrow, hs⟩ := mem_of_markerRow? heq hleaving
      obtain ⟨solved, hsolved, hkeys⟩ := h.exchange hrow hs
      rw [hsolved]
      exact (h.dropRow leaving).substitute (hkeys.mono fun x hx => hx.1)

end Shaped

end Tableau

end BoxLayout
