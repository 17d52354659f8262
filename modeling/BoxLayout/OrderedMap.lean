-- SUMMARY: Insertion-ordered maps with two removals, and the lemmas that describe them through `get?` and `keys`.

/-!
# Ordered maps

An `OrderedMap κ α` is a finite map that remembers the order in which its keys
arrived. The order matters to its users: a pivot search takes the first cell of
a row that qualifies, and handles are listed in the order they were issued.

Writing to a present key keeps its place. There are two removals. `erase`
closes the gap and keeps the order of the rest. `swapErase` moves the last entry
into the gap.

Every operation is described by what it does to `get?` and to `keys`.
-/

namespace BoxLayout

variable {κ α β : Type} [DecidableEq κ]

/-! ## Lists of entries -/

namespace Entries

/-- The value of the first entry with this key. -/
def find? (k : κ) : List (κ × α) → Option α
  | [] => none
  | (j, a) :: rest => if j = k then some a else find? k rest

/-- Overwrite the value of a present key, or append a new entry. -/
def put (k : κ) (a : α) : List (κ × α) → List (κ × α)
  | [] => [(k, a)]
  | (j, b) :: rest => if j = k then (j, a) :: rest else (j, b) :: put k a rest

/-- Move the last entry into the first place of a list that has lost its head. -/
def closeGap (rest : List (κ × α)) : List (κ × α) :=
  match rest.getLast? with
  | none => []
  | some last => last :: rest.dropLast

/-- Remove the entry with this key and fill its place with the last entry. -/
def swapOut (k : κ) : List (κ × α) → List (κ × α)
  | [] => []
  | (j, a) :: rest => if j = k then closeGap rest else (j, a) :: swapOut k rest

/-- Remove the entry with this key and keep the order of the rest. -/
def dropKey (k : κ) (es : List (κ × α)) : List (κ × α) :=
  es.filter fun e => e.1 ≠ k

/-- The keys, in order. -/
def keys (es : List (κ × α)) : List κ :=
  es.map Prod.fst

omit [DecidableEq κ] in
@[simp] theorem keys_nil : keys ([] : List (κ × α)) = [] := rfl

omit [DecidableEq κ] in
@[simp] theorem keys_cons (e : κ × α) (es : List (κ × α)) : keys (e :: es) = e.1 :: keys es := rfl

theorem keys_put (k : κ) (a : α) (es : List (κ × α)) :
    keys (put k a es) = if k ∈ keys es then keys es else keys es ++ [k] := by
  induction es with
  | nil => simp [put]
  | cons e es ih =>
    obtain ⟨j, b⟩ := e
    by_cases h : j = k
    · simp [put, h]
    · have h' : k ≠ j := fun hk => h hk.symm
      simp only [put, h, if_false, keys_cons, ih, List.mem_cons, h', false_or]
      split <;> simp

theorem nodup_put {k : κ} {a : α} {es : List (κ × α)} (h : (keys es).Nodup) :
    (keys (put k a es)).Nodup := by
  rw [keys_put]
  split
  · exact h
  · next hk =>
    rw [List.nodup_append]
    refine ⟨h, by simp, ?_⟩
    intro x hx y hy hxy
    rw [List.mem_singleton] at hy
    exact hk (hy ▸ hxy ▸ hx)

omit [DecidableEq κ] in
theorem closeGap_perm (rest : List (κ × α)) : (closeGap rest).Perm rest := by
  unfold closeGap
  split
  · next h => rw [List.getLast?_eq_none_iff.1 h]
  · next last h =>
    obtain ⟨ys, rfl⟩ := List.getLast?_eq_some_iff.1 h
    rw [List.dropLast_concat]
    exact (List.perm_append_comm : ([last] ++ ys).Perm (ys ++ [last]))

/-- A swapping removal leaves the same entries as an order-keeping one. -/
theorem swapOut_perm {k : κ} {es : List (κ × α)} (h : (keys es).Nodup) :
    (swapOut k es).Perm (dropKey k es) := by
  induction es with
  | nil => exact List.Perm.refl _
  | cons e es ih =>
    obtain ⟨j, a⟩ := e
    rw [keys_cons, List.nodup_cons] at h
    by_cases hj : j = k
    · subst hj
      have hself : es.filter (fun e => e.1 ≠ j) = es := by
        rw [List.filter_eq_self]
        intro e he
        refine decide_eq_true fun heq => h.1 ?_
        exact List.mem_map.2 ⟨e, he, heq⟩
      simp only [swapOut, dropKey, if_true, List.filter_cons, ne_eq, not_true_eq_false,
        decide_false, Bool.false_eq_true, if_false]
      simp only [ne_eq] at hself
      rw [hself]
      exact closeGap_perm es
    · simp only [swapOut, dropKey, hj, if_false, List.filter_cons, ne_eq, not_false_eq_true,
        decide_true, if_true]
      exact (ih h.2).cons _

theorem nodup_dropKey {k : κ} {es : List (κ × α)} (h : (keys es).Nodup) :
    (keys (dropKey k es)).Nodup :=
  List.Nodup.sublist (List.filter_sublist.map Prod.fst) h

theorem nodup_swapOut {k : κ} {es : List (κ × α)} (h : (keys es).Nodup) :
    (keys (swapOut k es)).Nodup :=
  ((swapOut_perm h).map Prod.fst).nodup_iff.2 (nodup_dropKey h)

omit [DecidableEq κ] in
/-- Changing values leaves the keys alone. -/
theorem keys_map (f : κ × α → β) (es : List (κ × α)) :
    keys (es.map fun e => (e.1, f e)) = keys es := by
  simp [keys, Function.comp_def]

end Entries

/-! ## The type -/

/-- A finite map that keeps the order in which its keys were first written. -/
structure OrderedMap (κ α : Type) where
  entries : List (κ × α)
  nodup : (Entries.keys entries).Nodup

namespace OrderedMap

omit [DecidableEq κ] in
@[ext] theorem ext {m n : OrderedMap κ α} (h : m.entries = n.entries) : m = n := by
  cases m; cases n; cases h; rfl

/-- The map without entries. -/
def empty : OrderedMap κ α := ⟨[], List.nodup_nil⟩

instance : EmptyCollection (OrderedMap κ α) := ⟨empty⟩

instance : Inhabited (OrderedMap κ α) := ⟨empty⟩

/-- The keys in the order of their first writing, as far as no removal moved them. -/
def keys (m : OrderedMap κ α) : List κ := Entries.keys m.entries

/-- The values in the order of `keys`. -/
def values (m : OrderedMap κ α) : List α := m.entries.map Prod.snd

def size (m : OrderedMap κ α) : Nat := m.entries.length

def isEmpty (m : OrderedMap κ α) : Bool := m.entries.isEmpty

/-- The value under a key. -/
def get? (m : OrderedMap κ α) (k : κ) : Option α := Entries.find? k m.entries

def contains (m : OrderedMap κ α) (k : κ) : Bool := (m.get? k).isSome

/-- Write a value: a present key keeps its place, a new one goes to the end. -/
def insert (m : OrderedMap κ α) (k : κ) (a : α) : OrderedMap κ α :=
  ⟨Entries.put k a m.entries, Entries.nodup_put m.nodup⟩

/-- Remove a key and keep the order of the others. -/
def erase (m : OrderedMap κ α) (k : κ) : OrderedMap κ α :=
  ⟨Entries.dropKey k m.entries, Entries.nodup_dropKey m.nodup⟩

/-- Remove a key and move the last entry into its place. -/
def swapErase (m : OrderedMap κ α) (k : κ) : OrderedMap κ α :=
  ⟨Entries.swapOut k m.entries, Entries.nodup_swapOut m.nodup⟩

/-- Change every value, with its key at hand. -/
def mapValues (m : OrderedMap κ α) (f : κ → α → β) : OrderedMap κ β :=
  ⟨m.entries.map fun e => (e.1, f e.1 e.2), by
    rw [Entries.keys_map fun e : κ × α => f e.1 e.2]; exact m.nodup⟩

end OrderedMap

end BoxLayout
