import Mathlib.Data.List.Nodup
import Mathlib.Data.List.Perm.Basic

/-!
# Go maps, `range` and slices filled by index

The agent's validators collect their results in Go maps (`map[int32]*Process`,
`map[string]*violatedFile`, `map[string]struct{}`) and its reporters copy a map into a slice
made with `make([]*T, len(m))`, writing slot `i` on the `i`-th iteration of a `range`.

* `GoMap K V` is a map as its entries, each key once (`nodup`), so that no value can hold a key
  twice. `m[k] = v` (`insert`) replaces the entry of `k`; `delete` removes it, and a loop of
  deletes depends only on the set of keys it deletes (`deleteAll_congr`).
* The order of the entries is not observable: Go randomises the order of every `range` over a
  map. A `RangeOrder` is the order the runtime picks, any permutation of what it ranges over, and
  every loop over a map takes one, so that every theorem holds for every iteration order.
* `fillSlots` is the slot-by-slot copy; `fillSlots_range` says a range of the whole map fills
  every slot, in the order of the range.
-/

namespace Tarian.Go

/-- The order one `for ... range` statement visits a map's entries in: the runtime may pick any
permutation. -/
structure RangeOrder (α : Type) where
  arrange : List α → List α
  arrange_perm : ∀ l, (arrange l).Perm l

/-- The order in which the entries are stored, one of the orders the runtime may pick. -/
def RangeOrder.asStored {α : Type} : RangeOrder α := ⟨id, List.Perm.refl⟩

/-- A Go map `map[K]V`: its entries, each key at most once. -/
structure GoMap (K V : Type) where
  entries : List (K × V)
  nodup : (entries.map Prod.fst).Nodup

namespace GoMap

variable {K V : Type}

/-- `make(map[K]V)`. -/
def empty : GoMap K V := ⟨[], List.nodup_nil⟩

/-- The keys, in the order of `entries`. -/
def keys (m : GoMap K V) : List K := m.entries.map Prod.fst

/-- `len(m)`. -/
def len (m : GoMap K V) : Nat := m.entries.length

/-- The comma-ok lookup `v, ok := m[k]`. -/
def find? [DecidableEq K] (m : GoMap K V) (k : K) : Option V :=
  (m.entries.find? (·.1 = k)).map Prod.snd

/-- The entries in the order a `range` statement visits them. -/
def range (ord : RangeOrder (K × V)) (m : GoMap K V) : List (K × V) := ord.arrange m.entries

section Update

variable [DecidableEq K]

/-- `delete(m, k)`. -/
def delete (m : GoMap K V) (k : K) : GoMap K V :=
  ⟨m.entries.filter (·.1 ≠ k), (List.filter_sublist _).map Prod.fst |>.nodup m.nodup⟩

/-- The assignment `m[k] = v`: the entry of `k`, if any, is replaced. -/
def insert (m : GoMap K V) (k : K) (v : V) : GoMap K V :=
  ⟨(m.delete k).entries ++ [(k, v)], by
    rw [List.map_append, List.nodup_append]
    refine ⟨(m.delete k).nodup, List.nodup_singleton _, ?_⟩
    simp [delete, List.disjoint_singleton]⟩

/-- `for k := range ks { delete(m, k) }`. -/
def deleteAll (m : GoMap K V) (ks : List K) : GoMap K V := ks.foldl delete m

@[simp] theorem mem_entries_delete {m : GoMap K V} {k : K} {e : K × V} :
    e ∈ (m.delete k).entries ↔ e ∈ m.entries ∧ e.1 ≠ k := by
  simp [delete]

@[simp] theorem mem_entries_insert {m : GoMap K V} {k : K} {v : V} {e : K × V} :
    e ∈ (m.insert k v).entries ↔ e ∈ m.entries ∧ e.1 ≠ k ∨ e = (k, v) := by
  simp [insert]

@[simp] theorem mem_entries_deleteAll {m : GoMap K V} {ks : List K} {e : K × V} :
    e ∈ (m.deleteAll ks).entries ↔ e ∈ m.entries ∧ e.1 ∉ ks := by
  induction ks generalizing m with
  | nil => simp [deleteAll]
  | cons k ks ih => simp only [deleteAll, List.foldl_cons] at *; simp [ih]; tauto

theorem entries_deleteAll (m : GoMap K V) (ks : List K) :
    (m.deleteAll ks).entries = m.entries.filter fun e => e.1 ∉ ks := by
  induction ks generalizing m with
  | nil => simp [deleteAll]
  | cons k ks ih =>
    simp only [deleteAll, List.foldl_cons] at ih ⊢
    rw [ih, delete, List.filter_filter]
    congr 1
    funext e
    simp [Bool.and_comm]

/-- `delete` in a loop depends on which keys it is given, not on their order or repeats. -/
theorem deleteAll_congr (m : GoMap K V) {ks ks' : List K} (h : ∀ k, k ∈ ks ↔ k ∈ ks') :
    m.deleteAll ks = m.deleteAll ks' := by
  have he : (m.deleteAll ks).entries = (m.deleteAll ks').entries := by
    simp only [entries_deleteAll, h]
  revert he
  cases m.deleteAll ks
  cases m.deleteAll ks'
  simp

/-! ### Loops that write `m[key x] = val x` for the `x` that pass a test -/

section InsertIf

variable {α : Type} (P : α → Bool) (key : α → K) (val : α → V)

/-- One iteration: `if P(x) { m[key(x)] = val(x) }`. -/
def insertIf (m : GoMap K V) (x : α) : GoMap K V := if P x then m.insert (key x) (val x) else m

theorem mem_keys_insert {m : GoMap K V} {k k' : K} {v : V} :
    k ∈ (m.insert k' v).keys ↔ k ∈ m.keys ∨ k = k' := by
  simp only [keys, List.mem_map, mem_entries_insert]
  constructor
  · rintro ⟨e, (⟨he, -⟩ | rfl), rfl⟩
    exacts [.inl ⟨e, he, rfl⟩, .inr rfl]
  · rintro (⟨e, he, rfl⟩ | rfl)
    · by_cases hk : e.1 = k'
      · exact ⟨(k', v), .inr rfl, hk.symm⟩
      · exact ⟨e, .inl ⟨he, hk⟩, rfl⟩
    · exact ⟨(k, v), .inr rfl, rfl⟩

theorem mem_entries_insertIf {m : GoMap K V} {x : α} {e : K × V}
    (h : e ∈ (insertIf P key val m x).entries) : e ∈ m.entries ∨ P x ∧ e = (key x, val x) := by
  unfold insertIf at h
  split at h
  · rcases mem_entries_insert.mp h with h | rfl
    exacts [.inl h.1, .inr ⟨‹_›, rfl⟩]
  · exact .inl h

theorem mem_keys_insertIf {m : GoMap K V} {x : α} {k : K} :
    k ∈ (insertIf P key val m x).keys ↔ k ∈ m.keys ∨ P x ∧ key x = k := by
  by_cases hP : P x
  · simp only [insertIf, hP, if_true, mem_keys_insert, true_and]
    exact or_congr_right eq_comm
  · simp [insertIf, hP]

/-- Every entry was there before or was written by a passing `x`. -/
theorem mem_foldl_insertIf {xs : List α} {m : GoMap K V} {e : K × V}
    (h : e ∈ (xs.foldl (insertIf P key val) m).entries) :
    e ∈ m.entries ∨ ∃ x ∈ xs, P x ∧ e = (key x, val x) := by
  induction xs generalizing m with
  | nil => exact .inl h
  | cons x xs ih =>
    rcases ih h with h | ⟨y, hy, hP, rfl⟩
    · rcases mem_entries_insertIf P key val h with h | ⟨hP, rfl⟩
      exacts [.inl h, .inr ⟨x, List.mem_cons_self _ _, hP, rfl⟩]
    · exact .inr ⟨y, List.mem_cons_of_mem _ hy, hP, rfl⟩

/-- A key is present iff it was before or some passing `x` wrote it. -/
theorem mem_keys_foldl_insertIf {xs : List α} {m : GoMap K V} {k : K} :
    k ∈ (xs.foldl (insertIf P key val) m).keys ↔ k ∈ m.keys ∨ ∃ x ∈ xs, P x ∧ key x = k := by
  induction xs generalizing m with
  | nil => simp
  | cons x xs ih => simp only [List.foldl_cons, ih, mem_keys_insertIf, List.mem_cons]; aesop

end InsertIf

end Update

@[simp] theorem entries_empty : (empty : GoMap K V).entries = [] := rfl

@[simp] theorem keys_empty : (empty : GoMap K V).keys = [] := rfl

theorem mem_keys {m : GoMap K V} {k : K} : k ∈ m.keys ↔ ∃ v, (k, v) ∈ m.entries := by
  simp [keys]

theorem isSome_find? [DecidableEq K] {m : GoMap K V} {k : K} :
    (m.find? k).isSome ↔ k ∈ m.keys := by
  simp [find?, keys, List.find?_isSome]

theorem len_pos_iff {m : GoMap K V} : 0 < m.len ↔ ∃ e, e ∈ m.entries := by
  simp [len, List.length_pos_iff_exists_mem]

/-- Two entries of one map with the same key are the same entry. -/
theorem eq_of_mem_entries {m : GoMap K V} {k : K} {v w : V} (hv : (k, v) ∈ m.entries)
    (hw : (k, w) ∈ m.entries) : v = w := by
  simpa using List.inj_on_of_nodup_map m.nodup hv hw rfl

theorem range_perm (ord : RangeOrder (K × V)) (m : GoMap K V) : (m.range ord).Perm m.entries :=
  ord.arrange_perm _

theorem mem_range {ord : RangeOrder (K × V)} {m : GoMap K V} {e : K × V} :
    e ∈ m.range ord ↔ e ∈ m.entries :=
  (m.range_perm ord).mem_iff

theorem length_range (ord : RangeOrder (K × V)) (m : GoMap K V) : (m.range ord).length = m.len :=
  (m.range_perm ord).length_eq

theorem mem_range_keys {ord : RangeOrder (K × V)} {m : GoMap K V} {k : K} :
    k ∈ (m.range ord).map Prod.fst ↔ k ∈ m.keys :=
  ((m.range_perm ord).map Prod.fst).mem_iff

/-- A range visits each key once. -/
theorem nodup_range_keys (ord : RangeOrder (K × V)) (m : GoMap K V) :
    ((m.range ord).map Prod.fst).Nodup :=
  ((m.range_perm ord).map Prod.fst).nodup_iff.mpr m.nodup

end GoMap

/-! ## Slices filled by index -/

/-- `s[i] = f(x); i++` over the visited `xs`, from slot `i` on. -/
def fillSlots {α β : Type} (f : α → β) : List (Option β) → Nat → List α → List (Option β)
  | slots, _, [] => slots
  | slots, i, x :: xs => fillSlots f (slots.set i (some (f x))) (i + 1) xs

theorem fillSlots_eq {α β : Type} (f : α → β) :
    ∀ (xs : List α) (slots : List (Option β)) (i : Nat), i + xs.length = slots.length →
      fillSlots f slots i xs = slots.take i ++ xs.map (some ∘ f)
  | [], slots, i, h => by simp at h; simp [fillSlots, h]
  | x :: xs, slots, i, h => by
    simp only [List.length_cons] at h
    rw [fillSlots, fillSlots_eq f xs _ (i + 1) (by simp; omega)]
    have hi : i < slots.length := by omega
    have hs : (slots.set i (some (f x))).take i = slots.take i := by
      rw [List.set_take, List.set_eq_of_length_le (by simp)]
    simp [List.take_succ, List.getElem?_set, hi, hs]

/-- **A range over the whole map fills every slot** of `make([]*T, len(m))`, in the order of the
range. -/
theorem fillSlots_range {K V β : Type} [DecidableEq K] (f : K × V → β)
    (ord : RangeOrder (K × V)) (m : GoMap K V) :
    fillSlots f (List.replicate m.len none) 0 (m.range ord) = (m.range ord).map (some ∘ f) := by
  rw [fillSlots_eq f _ _ 0 (by simp [GoMap.length_range])]
  simp

end Tarian.Go
