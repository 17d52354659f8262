-- SUMMARY: What each operation of an ordered map does to `get?`, to `keys` and to the set of entries.
import BoxLayout.OrderedMap

/-!
# Reading an ordered map after a change

One equation per operation through `get?`, and one through `keys` where the
order is determined. For `swapErase` only membership is stated: the order it
leaves depends on the last entry.
-/

namespace BoxLayout

variable {κ α β : Type} [DecidableEq κ]

namespace Entries

theorem find?_eq_none_iff {k : κ} {es : List (κ × α)} : find? k es = none ↔ k ∉ keys es := by
  induction es with
  | nil => simp [find?]
  | cons e es ih =>
    obtain ⟨j, a⟩ := e
    by_cases h : j = k
    · simp [find?, h]
    · have h' : k ≠ j := fun hk => h hk.symm
      simp [find?, h, h', ih]

/-- With distinct keys, looking up and being an entry are the same. -/
theorem find?_eq_some_iff {k : κ} {a : α} {es : List (κ × α)} (hd : (keys es).Nodup) :
    find? k es = some a ↔ (k, a) ∈ es := by
  induction es with
  | nil => simp [find?]
  | cons e es ih =>
    obtain ⟨j, b⟩ := e
    rw [keys_cons, List.nodup_cons] at hd
    by_cases h : j = k
    · subst h
      have hout : (j, a) ∉ es := fun hm => hd.1 (List.mem_map.2 ⟨_, hm, rfl⟩)
      simp only [find?, if_true, Option.some.injEq, List.mem_cons, Prod.mk.injEq, true_and, hout,
        or_false]
      exact eq_comm
    · have h' : k ≠ j := fun hk => h hk.symm
      simp [find?, h, h', ih hd.2]

theorem find?_put (k j : κ) (a : α) (es : List (κ × α)) :
    find? j (put k a es) = if j = k then some a else find? j es := by
  induction es with
  | nil => by_cases h : k = j <;> simp [put, find?, h, eq_comm]
  | cons e es ih =>
    obtain ⟨i, b⟩ := e
    by_cases hik : i = k
    · subst hik
      by_cases hij : i = j
      · simp [put, find?, hij]
      · have hji : ¬j = i := fun h => hij h.symm
        simp [put, find?, hij, hji]
    · by_cases hij : i = j
      · have : j ≠ k := fun hjk => hik (hij.trans hjk)
        simp [put, find?, hij, this]
      · simp [put, find?, hik, hij, ih]

/-- Writing the value that is there already changes nothing. -/
theorem put_of_find? {k : κ} {a : α} {es : List (κ × α)} (h : find? k es = some a) :
    put k a es = es := by
  induction es with
  | nil => cases h
  | cons e es ih =>
    obtain ⟨j, b⟩ := e
    by_cases hj : j = k
    · simp only [find?, if_pos hj, Option.some.injEq] at h
      simp only [put, if_pos hj, h]
    · simp only [find?, if_neg hj] at h
      simp only [put, if_neg hj, ih h]

theorem find?_perm {es fs : List (κ × α)} (hd : (keys es).Nodup) (h : es.Perm fs) (k : κ) :
    find? k es = find? k fs := by
  have hd' : (keys fs).Nodup := ((h.map Prod.fst).nodup_iff).1 hd
  apply Option.ext
  intro a
  rw [find?_eq_some_iff hd, find?_eq_some_iff hd', h.mem_iff]

theorem find?_dropKey (k j : κ) (es : List (κ × α)) :
    find? j (dropKey k es) = if j = k then none else find? j es := by
  induction es with
  | nil => simp [dropKey, find?]
  | cons e es ih =>
    obtain ⟨i, b⟩ := e
    unfold dropKey at ih ⊢
    by_cases hik : i = k
    · subst hik
      by_cases hij : i = j
      · simpa [hij] using ih
      · have hji : j ≠ i := fun h => hij h.symm
        simpa [find?, hij, hji] using ih
    · by_cases hij : i = j
      · subst hij; simp [find?, hik]
      · simpa [find?, hik, hij] using ih

theorem find?_map (f : κ → α → β) (k : κ) (es : List (κ × α)) :
    find? k (es.map fun e => (e.1, f e.1 e.2)) = (find? k es).map (f k) := by
  induction es with
  | nil => rfl
  | cons e es ih =>
    obtain ⟨j, a⟩ := e
    by_cases h : j = k
    · simp [find?, h]
    · simpa [find?, h] using ih

theorem find?_append (k : κ) (es fs : List (κ × α)) :
    find? k (es ++ fs) = (find? k es).or (find? k fs) := by
  induction es with
  | nil => rfl
  | cons e es ih =>
    obtain ⟨j, a⟩ := e
    by_cases h : j = k
    · simp [find?, h]
    · simpa [find?, h] using ih

/-- Writing a new key adds one entry. -/
theorem put_perm {k : κ} (a : α) {es : List (κ × α)} (h : k ∉ keys es) :
    (put k a es).Perm ((k, a) :: es) := by
  induction es with
  | nil => exact List.Perm.refl _
  | cons e es ih =>
    obtain ⟨j, b⟩ := e
    rw [keys_cons, List.mem_cons, not_or] at h
    have hj : ¬j = k := fun e => h.1 e.symm
    simp only [put, hj, if_false]
    exact ((ih h.2).cons _).trans (List.Perm.swap _ _ _)

/-- Removing a present key takes one entry out. -/
theorem perm_dropKey {k : κ} {a : α} {es : List (κ × α)} (hd : (keys es).Nodup)
    (h : find? k es = some a) : es.Perm ((k, a) :: dropKey k es) := by
  induction es with
  | nil => cases h
  | cons e es ih =>
    obtain ⟨j, b⟩ := e
    rw [keys_cons, List.nodup_cons] at hd
    by_cases hj : j = k
    · subst hj
      simp only [find?, if_true, Option.some.injEq] at h
      subst h
      have hself : dropKey j es = es := by
        refine List.filter_eq_self.2 fun e he => decide_eq_true fun heq => hd.1 ?_
        exact List.mem_map.2 ⟨e, he, heq⟩
      have hdrop : dropKey j ((j, b) :: es) = dropKey j es := by simp [dropKey]
      rw [hdrop, hself]
    · simp only [find?, hj, if_false] at h
      have hdrop : dropKey k ((j, b) :: es) = (j, b) :: dropKey k es := by simp [dropKey, hj]
      rw [hdrop]
      exact ((ih hd.2 h).cons _).trans (List.Perm.swap _ _ _)

end Entries

namespace OrderedMap

/-! ## Entries, keys and `get?` -/

theorem mem_entries_iff {m : OrderedMap κ α} {k : κ} {a : α} :
    (k, a) ∈ m.entries ↔ m.get? k = some a :=
  (Entries.find?_eq_some_iff m.nodup).symm

theorem get?_eq_none_iff {m : OrderedMap κ α} {k : κ} : m.get? k = none ↔ k ∉ m.keys :=
  Entries.find?_eq_none_iff

theorem mem_keys_iff {m : OrderedMap κ α} {k : κ} : k ∈ m.keys ↔ ∃ a, m.get? k = some a := by
  rw [← Option.isSome_iff_exists, Option.isSome_iff_ne_none, ne_eq, get?_eq_none_iff,
    Classical.not_not]

theorem contains_iff {m : OrderedMap κ α} {k : κ} : m.contains k = true ↔ k ∈ m.keys := by
  rw [mem_keys_iff, contains, Option.isSome_iff_exists]

omit [DecidableEq κ] in
theorem nodup_keys (m : OrderedMap κ α) : m.keys.Nodup := m.nodup

/-- An entry that was filtered out is not found any more. -/
theorem get?_eq_none_of_filter {m n : OrderedMap κ α} {p : κ × α → Bool} {k : κ}
    (h : n.entries = m.entries.filter p) (hp : ∀ a, m.get? k = some a → p (k, a) = false) :
    n.get? k = none := by
  cases hk : n.get? k with
  | none => rfl
  | some a =>
    have hmem := mem_entries_iff.2 hk
    rw [h, List.mem_filter, mem_entries_iff] at hmem
    have hout := hp a hmem.1
    rw [hmem.2] at hout
    cases hout

/-! ## Writing -/

@[simp] theorem get?_empty (k : κ) : (empty : OrderedMap κ α).get? k = none := rfl

omit [DecidableEq κ] in
@[simp] theorem keys_empty : (empty : OrderedMap κ α).keys = [] := rfl

theorem get?_insert (m : OrderedMap κ α) (k j : κ) (a : α) :
    (m.insert k a).get? j = if j = k then some a else m.get? j :=
  Entries.find?_put k j a m.entries

/-- What is found after writing was written or was there before. -/
theorem get?_insert_cases {m : OrderedMap κ α} {k j : κ} {a b : α}
    (h : (m.insert k a).get? j = some b) : j = k ∧ b = a ∨ m.get? j = some b := by
  rw [get?_insert] at h
  split at h
  · next hj => exact Or.inl ⟨hj, (Option.some.inj h).symm⟩
  · exact Or.inr h

theorem insert_of_get? {m : OrderedMap κ α} {k : κ} {a : α} (h : m.get? k = some a) :
    m.insert k a = m :=
  ext (Entries.put_of_find? h)

theorem keys_insert (m : OrderedMap κ α) (k : κ) (a : α) :
    (m.insert k a).keys = if k ∈ m.keys then m.keys else m.keys ++ [k] :=
  Entries.keys_put k a m.entries

theorem mem_keys_insert {m : OrderedMap κ α} {k j : κ} {a : α} :
    j ∈ (m.insert k a).keys ↔ j = k ∨ j ∈ m.keys := by
  rw [keys_insert]
  split
  · next h => exact ⟨Or.inr, fun hj => hj.elim (fun e => e ▸ h) id⟩
  · rw [List.mem_append, List.mem_singleton, or_comm]

/-! ## Removing -/

theorem get?_erase (m : OrderedMap κ α) (k j : κ) :
    (m.erase k).get? j = if j = k then none else m.get? j :=
  Entries.find?_dropKey k j m.entries

theorem get?_swapErase (m : OrderedMap κ α) (k j : κ) :
    (m.swapErase k).get? j = if j = k then none else m.get? j := by
  rw [← get?_erase]
  exact Entries.find?_perm (m.swapErase k).nodup (Entries.swapOut_perm m.nodup) j

/-- What is found after removing was there before, under another key. -/
theorem get?_of_swapErase {m : OrderedMap κ α} {k j : κ} {a : α}
    (h : (m.swapErase k).get? j = some a) : j ≠ k ∧ m.get? j = some a := by
  rw [get?_swapErase] at h
  split at h
  · cases h
  · next hj => exact ⟨hj, h⟩

theorem swapErase_perm (m : OrderedMap κ α) (k : κ) :
    (m.swapErase k).entries.Perm (m.erase k).entries :=
  Entries.swapOut_perm m.nodup

theorem keys_erase (m : OrderedMap κ α) (k : κ) :
    (m.erase k).keys = m.keys.filter fun j => j ≠ k := by
  simp only [keys, Entries.keys, erase, Entries.dropKey, List.filter_map]
  rfl

theorem mem_keys_erase {m : OrderedMap κ α} {k j : κ} :
    j ∈ (m.erase k).keys ↔ j ≠ k ∧ j ∈ m.keys := by
  rw [keys_erase, List.mem_filter, decide_eq_true_iff, and_comm]

theorem mem_keys_swapErase {m : OrderedMap κ α} {k j : κ} :
    j ∈ (m.swapErase k).keys ↔ j ≠ k ∧ j ∈ m.keys := by
  rw [← mem_keys_erase]
  exact ((swapErase_perm m k).map Prod.fst).mem_iff

/-! ## Values -/

theorem mem_values_iff {m : OrderedMap κ α} {a : α} : a ∈ m.values ↔ ∃ k, m.get? k = some a := by
  unfold values
  rw [List.mem_map]
  constructor
  · rintro ⟨e, he, rfl⟩
    exact ⟨e.1, mem_entries_iff.1 he⟩
  · rintro ⟨k, hk⟩
    exact ⟨(k, a), mem_entries_iff.2 hk, rfl⟩

theorem values_insert_perm {m : OrderedMap κ α} {k : κ} (a : α) (h : m.get? k = none) :
    (m.insert k a).values.Perm (a :: m.values) :=
  (Entries.put_perm a (get?_eq_none_iff.1 h)).map Prod.snd

theorem values_perm_swapErase {m : OrderedMap κ α} {k : κ} {a : α} (h : m.get? k = some a) :
    m.values.Perm (a :: (m.swapErase k).values) := by
  have hdrop := (Entries.perm_dropKey m.nodup h).map Prod.snd
  exact hdrop.trans (((swapErase_perm m k).map Prod.snd).symm.cons a)

/-! ## Changing values -/

theorem get?_mapValues (m : OrderedMap κ α) (f : κ → α → β) (k : κ) :
    (m.mapValues f).get? k = (m.get? k).map (f k) :=
  Entries.find?_map f k m.entries

omit [DecidableEq κ] in
@[simp] theorem keys_mapValues (m : OrderedMap κ α) (f : κ → α → β) :
    (m.mapValues f).keys = m.keys :=
  Entries.keys_map (fun e : κ × α => f e.1 e.2) m.entries

end OrderedMap

end BoxLayout
