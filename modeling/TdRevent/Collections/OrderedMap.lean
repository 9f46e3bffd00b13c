import Mathlib.Order.Basic
import Mathlib.Data.List.Basic
import Mathlib.Data.List.Nodup
import Mathlib.Data.List.Sort

/-!
# Finite maps kept in the order of their keys

The map is the list of its entries, and its invariant is that the keys
increase strictly. The least entry is the head of the list. Insertion of a
key that is present replaces its value.
-/

/-- A finite map from `K` to `V`, listed by increasing key. -/
@[ext]
structure OrderedMap (K V : Type) [LinearOrder K] where
  entries : List (K × V)
  sorted : entries.Pairwise fun a b => a.1 < b.1

namespace OrderedMap

variable {K V : Type} [LinearOrder K]

instance : Membership (K × V) (OrderedMap K V) := ⟨fun m e => e ∈ m.entries⟩

theorem mem_def {m : OrderedMap K V} {e : K × V} : e ∈ m ↔ e ∈ m.entries := Iff.rfl

/-- The map without entries. -/
def empty : OrderedMap K V := ⟨[], .nil⟩

@[simp] theorem not_mem_empty (e : K × V) : e ∉ (empty : OrderedMap K V) := by
  simp [mem_def, empty]

/-- Bind the key to the value. -/
def insert (m : OrderedMap K V) (k : K) (v : V) : OrderedMap K V where
  entries := m.entries.filter (·.1 < k) ++ (k, v) :: m.entries.filter (k < ·.1)
  sorted := by
    simp only [List.pairwise_append, List.pairwise_cons, List.mem_filter, List.mem_cons,
      decide_eq_true_eq]
    refine ⟨m.sorted.filter _, ⟨fun b hb => hb.2, m.sorted.filter _⟩, ?_⟩
    rintro a ha b (rfl | hb)
    · exact ha.2
    · exact ha.2.trans hb.2

/-- Forget the key. -/
def remove (m : OrderedMap K V) (k : K) : OrderedMap K V :=
  ⟨m.entries.filter (·.1 ≠ k), m.sorted.filter _⟩

/-- The value of the key. -/
def find (m : OrderedMap K V) (k : K) : Option V :=
  (m.entries.find? (·.1 = k)).map (·.2)

/-- The entry of the least key. -/
def getFirst (m : OrderedMap K V) : Option (K × V) := m.entries.head?

/-- Take the entry of the least key out of the map. -/
def popFirst (m : OrderedMap K V) : Option ((K × V) × OrderedMap K V) :=
  match h : m.entries with
  | [] => none
  | e :: rest => some (e, ⟨rest, (List.pairwise_cons.mp (h ▸ m.sorted)).2⟩)

@[simp] theorem mem_insert {m : OrderedMap K V} {k : K} {v : V} {e : K × V} :
    e ∈ m.insert k v ↔ e = (k, v) ∨ e.1 ≠ k ∧ e ∈ m := by
  simp only [mem_def, insert, List.mem_append, List.mem_filter, List.mem_cons,
    decide_eq_true_eq, ne_iff_lt_or_gt]
  tauto

@[simp] theorem mem_remove {m : OrderedMap K V} {k : K} {e : K × V} :
    e ∈ m.remove k ↔ e.1 ≠ k ∧ e ∈ m := by
  simp [mem_def, remove, and_comm]

/-- A key has at most one value. -/
theorem mem_unique {m : OrderedMap K V} {k : K} {v w : V} (hv : (k, v) ∈ m)
    (hw : (k, w) ∈ m) : v = w := by
  by_contra hne
  have hrel := List.Pairwise.forall_of_forall_of_flip
    (R := fun a b : K × V => a = b ∨ a.1 ≠ b.1) (l := m.entries)
    (fun a _ => Or.inl rfl) (m.sorted.imp fun h => Or.inr h.ne)
    (m.sorted.imp fun h => Or.inr h.ne') hv hw
  rcases hrel with h | h
  · exact hne (congrArg Prod.snd h)
  · exact h rfl

theorem find_eq_some_iff {m : OrderedMap K V} {k : K} {v : V} :
    m.find k = some v ↔ (k, v) ∈ m := by
  constructor
  · intro h
    obtain ⟨e, he, rfl⟩ := Option.map_eq_some_iff.mp h
    have hk : e.1 = k := by simpa using List.find?_some he
    exact hk ▸ List.mem_of_find?_eq_some he
  · intro h
    cases hf : m.find k with
    | none =>
        have hnone := List.find?_eq_none.mp (Option.map_eq_none_iff.mp hf) _ h
        simp at hnone
    | some w =>
        obtain ⟨e, he, rfl⟩ := Option.map_eq_some_iff.mp hf
        have hk : e.1 = k := by simpa using List.find?_some he
        have hmem : (k, e.2) ∈ m := hk ▸ List.mem_of_find?_eq_some he
        rw [mem_unique hmem h]

theorem find_eq_none_iff {m : OrderedMap K V} {k : K} :
    m.find k = none ↔ ∀ v, (k, v) ∉ m := by
  rw [Option.eq_none_iff_forall_ne_some]
  exact forall_congr' fun v => not_congr find_eq_some_iff

theorem entries_nodup (m : OrderedMap K V) : m.entries.Nodup :=
  m.sorted.imp fun h he => h.ne (congrArg Prod.fst he)

/-- Maps with the same entries are equal. -/
theorem ext_mem {m m' : OrderedMap K V} (h : ∀ e, e ∈ m ↔ e ∈ m') : m = m' := by
  have hperm : m.entries.Perm m'.entries :=
    (List.perm_ext_iff_of_nodup m.entries_nodup m'.entries_nodup).mpr h
  exact OrderedMap.ext (hperm.eq_of_pairwise
    (fun _ _ _ _ hab hba => absurd (hab.trans hba) (lt_irrefl _)) m.sorted m'.sorted)

theorem getFirst_eq_some {m : OrderedMap K V} {e : K × V} (h : m.getFirst = some e) :
    e ∈ m ∧ ∀ f ∈ m, e.1 ≤ f.1 := by
  obtain ⟨rest, hrest⟩ := List.head?_eq_some_iff.mp h
  have hs := List.pairwise_cons.mp (hrest ▸ m.sorted)
  refine ⟨by simp [mem_def, hrest], fun f hf => ?_⟩
  rcases List.mem_cons.mp (hrest ▸ hf : f ∈ e :: rest) with rfl | hf
  · exact le_rfl
  · exact (hs.1 f hf).le

theorem getFirst_eq_none {m : OrderedMap K V} :
    m.getFirst = none ↔ m.entries = [] := by
  simp [getFirst]

theorem popFirst_eq_some {m m' : OrderedMap K V} {e : K × V} :
    m.popFirst = some (e, m') ↔ m.entries = e :: m'.entries := by
  unfold popFirst
  split
  · rename_i h
    simp [h]
  · rename_i f rest h
    simp [h, OrderedMap.ext_iff]

theorem popFirst_eq_none {m : OrderedMap K V} :
    m.popFirst = none ↔ m.entries = [] := by
  unfold popFirst
  split
  · rename_i h
    simp [h]
  · rename_i f rest h
    simp [h]

/-- The popped entry is the first one. -/
theorem getFirst_of_pop {m m' : OrderedMap K V} {e : K × V}
    (h : m.popFirst = some (e, m')) : m.getFirst = some e := by
  simp [getFirst, popFirst_eq_some.mp h]

/-- Popping removes the key of the popped entry and no other. -/
theorem mem_pop {m m' : OrderedMap K V} {e : K × V} (h : m.popFirst = some (e, m'))
    {f : K × V} : f ∈ m' ↔ f.1 ≠ e.1 ∧ f ∈ m := by
  have hm := popFirst_eq_some.mp h
  have hs := List.pairwise_cons.mp (hm ▸ m.sorted)
  simp only [mem_def, hm, List.mem_cons]
  constructor
  · exact fun hf => ⟨(hs.1 f hf).ne', Or.inr hf⟩
  · rintro ⟨hne, rfl | hf⟩
    · exact absurd rfl hne
    · exact hf

/-- Entries before the inserted key are listed as they were. -/
theorem filter_insert {m : OrderedMap K V} {k : K} {v : V} {p : K × V → Bool}
    (hk : p (k, v) = false) (hp : ∀ e, p e = true → e.1 < k) :
    (m.insert k v).entries.filter p = m.entries.filter p := by
  have hlow : (m.entries.filter (·.1 < k)).filter p = m.entries.filter p := by
    rw [List.filter_filter]
    apply List.filter_congr
    intro e _
    cases he : p e with
    | false => rfl
    | true => simp [hp e he]
  have hhigh : (m.entries.filter (k < ·.1)).filter p = [] := by
    rw [List.filter_filter]
    apply List.filter_eq_nil_iff.mpr
    intro e _ he
    simp only [Bool.and_eq_true, decide_eq_true_eq] at he
    exact lt_asymm (hp e he.1) he.2
  simp only [insert, List.filter_append, List.filter_cons, hk, hlow, hhigh]
  simp

/-- Removal of a key filters it from every part of the list. -/
theorem filter_remove {m : OrderedMap K V} {k : K} {p : K × V → Bool} :
    (m.remove k).entries.filter p = (m.entries.filter p).filter (·.1 ≠ k) := by
  simp only [remove, List.filter_filter, Bool.and_comm]

end OrderedMap
