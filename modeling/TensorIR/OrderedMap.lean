/-!
# Finite maps in key order

The tables of a lowered body — expressions by id, connectors by id, the readers of a connector —
are finite maps that are always walked in key order. Here such a map is its list of entries,
strictly ascending by key; the order is part of the type, so the list of entries is a canonical
form and two maps with the same look-ups are equal (`OrderedMap.ext_get?`). Undoing an insertion
therefore restores the very same map, which is what makes an edit of a body exactly reversible.

An ordered set is such a map without values.
-/

set_option autoImplicit false

namespace TensorIR

/-- A finite map whose entries ascend strictly by key. -/
structure OrderedMap (κ α : Type) [Ord κ] where
  /-- The entries in key order. -/
  entries : List (κ × α)
  /-- Each key is below all later ones. -/
  ascending : entries.Pairwise fun a b => compare a.1 b.1 = .lt

namespace OrderedMap

variable {κ α β : Type} [Ord κ]

/-- The map without entries. -/
def empty : OrderedMap κ α := ⟨[], .nil⟩

instance : Inhabited (OrderedMap κ α) := ⟨empty⟩

/-- The value stored under a key. -/
def get? (m : OrderedMap κ α) (k : κ) : Option α :=
  (m.entries.find? fun e => compare k e.1 == .eq).map (·.2)

/-- Whether a key has a value. -/
def contains (m : OrderedMap κ α) (k : κ) : Bool := m.entries.any fun e => compare k e.1 == .eq

/-- The keys in order. -/
def keys (m : OrderedMap κ α) : List κ := m.entries.map (·.1)

/-- The number of entries. -/
def size (m : OrderedMap κ α) : Nat := m.entries.length

/-! ## Storing a value -/

/-- The entries with `v` stored under `k`, in place of any earlier value. -/
def insertEntry (k : κ) (v : α) : List (κ × α) → List (κ × α)
  | [] => [(k, v)]
  | e :: es =>
    match compare k e.1 with
    | .lt => (k, v) :: e :: es
    | .eq => (k, v) :: es
    | .gt => e :: insertEntry k v es

theorem mem_insertEntry_imp {k : κ} {v : α} {es : List (κ × α)} {p : κ × α}
    (h : p ∈ insertEntry k v es) : p = (k, v) ∨ p ∈ es := by
  induction es with
  | nil => exact .inl (List.mem_singleton.mp h)
  | cons e es ih =>
    rw [insertEntry] at h
    split at h
    · simpa using h
    · rcases List.mem_cons.mp h with h | h
      · exact .inl h
      · exact .inr (List.mem_cons_of_mem _ h)
    · rcases List.mem_cons.mp h with h | h
      · exact .inr (h ▸ List.mem_cons_self ..)
      · exact (ih h).imp_right (List.mem_cons_of_mem _)

theorem insertEntry_ascending [Std.TransOrd κ] (k : κ) (v : α) {es : List (κ × α)}
    (h : es.Pairwise fun a b => compare a.1 b.1 = .lt) :
    (insertEntry k v es).Pairwise fun a b => compare a.1 b.1 = .lt := by
  induction es with
  | nil => simp [insertEntry]
  | cons e es ih =>
    rw [List.pairwise_cons] at h
    rw [insertEntry]
    split
    next hlt =>
      refine List.pairwise_cons.mpr ⟨fun p hp => ?_, List.pairwise_cons.mpr h⟩
      rcases List.mem_cons.mp hp with rfl | hp
      · exact hlt
      · exact Std.TransCmp.lt_trans hlt (h.1 p hp)
    next heq =>
      refine List.pairwise_cons.mpr ⟨fun p hp => ?_, h.2⟩
      exact Std.TransCmp.lt_of_eq_of_lt heq (h.1 p hp)
    next hgt =>
      refine List.pairwise_cons.mpr ⟨fun p hp => ?_, ih h.2⟩
      rcases mem_insertEntry_imp hp with rfl | hp
      · exact Std.OrientedCmp.lt_of_gt hgt
      · exact h.1 p hp

/-- Store a value under a key, in place of any earlier one. -/
def insert [Std.TransOrd κ] (m : OrderedMap κ α) (k : κ) (v : α) : OrderedMap κ α :=
  ⟨insertEntry k v m.entries, insertEntry_ascending k v m.ascending⟩

/-! ## Dropping values -/

/-- Drop a key and its value, if it has one. -/
def erase (m : OrderedMap κ α) (k : κ) : OrderedMap κ α where
  entries := m.entries.filter fun e => compare k e.1 != .eq
  ascending := m.ascending.filter _

/-! ## Reading back -/

@[simp] theorem get?_empty (k : κ) : (empty : OrderedMap κ α).get? k = none := rfl

theorem mem_insertEntry_self (k : κ) (v : α) (es : List (κ × α)) :
    (k, v) ∈ insertEntry k v es := by
  induction es with
  | nil => simp [insertEntry]
  | cons e es ih =>
    rw [insertEntry]
    split
    · simp
    · simp
    · exact List.mem_cons_of_mem _ ih

theorem mem_insertEntry_of_ne [Std.LawfulEqOrd κ] {k : κ} {v : α} {es : List (κ × α)}
    {p : κ × α} (hne : p.1 ≠ k) : p ∈ insertEntry k v es ↔ p ∈ es := by
  have hpair : p ≠ (k, v) := fun h => hne (h ▸ rfl)
  induction es with
  | nil => simp [insertEntry, hpair]
  | cons e es ih =>
    rw [insertEntry]
    split
    next => simp [hpair]
    next heq =>
      have : p ≠ e := fun h => hne (h ▸ (Std.LawfulEqCmp.eq_of_compare heq).symm)
      simp [hpair, this]
    next => simp [ih]

section Lawful

variable [Std.LawfulEqOrd κ]

theorem get?_eq_some_iff {m : OrderedMap κ α} {k : κ} {v : α} :
    m.get? k = some v ↔ (k, v) ∈ m.entries := by
  obtain ⟨es, h⟩ := m
  simp only [get?]
  induction es with
  | nil => simp
  | cons e es ih =>
    rw [List.pairwise_cons] at h
    by_cases heq : compare k e.1 = .eq
    · obtain rfl := Std.LawfulEqCmp.eq_of_compare heq
      have hnot : (e.1, v) ∉ es := fun hm => by
        have := h.1 _ hm
        rw [Std.ReflOrd.compare_self] at this
        exact absurd this (by decide)
      have : (e.1, v) = e ↔ e.2 = v := ⟨fun h => h ▸ rfl, fun h => h ▸ rfl⟩
      simp [List.find?, hnot, this]
    · have hne : (k, v) ≠ e := fun he => heq (by rw [← he]; exact Std.ReflOrd.compare_self)
      have hbeq : (compare k e.1 == .eq) = false := by simpa using heq
      rw [List.find?_cons, hbeq, List.mem_cons, or_iff_right hne]
      exact ih h.2

@[simp] theorem get?_insert_self [Std.TransOrd κ] (m : OrderedMap κ α) (k : κ) (v : α) :
    (m.insert k v).get? k = some v :=
  get?_eq_some_iff.mpr (mem_insertEntry_self k v m.entries)

theorem get?_insert_of_ne [Std.TransOrd κ] (m : OrderedMap κ α) {k k' : κ} (v : α)
    (hne : k' ≠ k) : (m.insert k v).get? k' = m.get? k' := by
  refine Option.ext fun w => ?_
  rw [get?_eq_some_iff, get?_eq_some_iff]
  exact mem_insertEntry_of_ne (p := (k', w)) hne

@[simp] theorem get?_erase_self (m : OrderedMap κ α) (k : κ) : (m.erase k).get? k = none := by
  refine Option.eq_none_iff_forall_ne_some.mpr fun v hv => ?_
  have := get?_eq_some_iff.mp hv
  simp [erase] at this

theorem get?_erase_of_ne (m : OrderedMap κ α) {k k' : κ} (hne : k' ≠ k) :
    (m.erase k).get? k' = m.get? k' := by
  refine Option.ext fun v => ?_
  rw [get?_eq_some_iff, get?_eq_some_iff]
  have : compare k k' ≠ .eq := fun h => hne (Std.LawfulEqCmp.eq_of_compare h).symm
  simp [erase, this]

theorem get?_insert [Std.TransOrd κ] [DecidableEq κ] (m : OrderedMap κ α) (k k' : κ) (v : α) :
    (m.insert k v).get? k' = if k' = k then some v else m.get? k' := by
  split
  next h => rw [h, get?_insert_self]
  next h => exact get?_insert_of_ne m v h

theorem get?_erase [DecidableEq κ] (m : OrderedMap κ α) (k k' : κ) :
    (m.erase k).get? k' = if k' = k then none else m.get? k' := by
  split
  next h => rw [h, get?_erase_self]
  next h => exact get?_erase_of_ne m h

theorem contains_iff {m : OrderedMap κ α} {k : κ} :
    m.contains k = true ↔ ∃ v, m.get? k = some v := by
  simp only [contains, List.any_eq_true, get?_eq_some_iff, beq_iff_eq]
  constructor
  · rintro ⟨e, he, hk⟩
    obtain rfl : k = e.1 := Std.LawfulEqCmp.eq_of_compare hk
    exact ⟨e.2, he⟩
  · rintro ⟨v, hv⟩
    exact ⟨(k, v), hv, Std.ReflOrd.compare_self⟩

/-- The keys of a map are different from each other. -/
theorem pairwise_ne (m : OrderedMap κ α) : m.entries.Pairwise fun p q => p.1 ≠ q.1 := by
  refine m.ascending.imp fun {p q} hlt heq => ?_
  rw [heq, Std.ReflOrd.compare_self] at hlt
  cases hlt

/-- Two ascending lists with the same members are equal: the least entry heads both. -/
theorem entries_eq_of_mem_iff [Std.TransOrd κ] {as bs : List (κ × α)}
    (ha : as.Pairwise fun a b => compare a.1 b.1 = .lt)
    (hb : bs.Pairwise fun a b => compare a.1 b.1 = .lt) (h : ∀ p, p ∈ as ↔ p ∈ bs) :
    as = bs := by
  have irrefl : ∀ p : κ × α, compare p.1 p.1 ≠ .lt := fun p hp => by
    rw [Std.ReflOrd.compare_self] at hp
    exact absurd hp (by decide)
  induction as generalizing bs with
  | nil =>
    cases bs with
    | nil => rfl
    | cons b bs => exact absurd ((h b).mpr (List.mem_cons_self ..)) (by simp)
  | cons a as ih =>
    cases bs with
    | nil => exact absurd ((h a).mp (List.mem_cons_self ..)) (by simp)
    | cons b bs =>
      rw [List.pairwise_cons] at ha hb
      have hab : a = b := by
        rcases List.mem_cons.mp ((h a).mp (List.mem_cons_self ..)) with hab | hmem
        · exact hab
        rcases List.mem_cons.mp ((h b).mpr (List.mem_cons_self ..)) with hba | hmem'
        · exact hba.symm
        exact absurd (Std.TransCmp.lt_trans (hb.1 a hmem) (ha.1 b hmem')) (irrefl b)
      subst hab
      congr 1
      refine ih ha.2 hb.2 fun p => ?_
      constructor
      · intro hp
        rcases List.mem_cons.mp ((h p).mp (List.mem_cons_of_mem _ hp)) with rfl | hp'
        · exact absurd (ha.1 p hp) (irrefl p)
        · exact hp'
      · intro hp
        rcases List.mem_cons.mp ((h p).mpr (List.mem_cons_of_mem _ hp)) with rfl | hp'
        · exact absurd (hb.1 p hp) (irrefl p)
        · exact hp'

/-- Maps are determined by their look-ups. -/
theorem ext_get? [Std.TransOrd κ] {m n : OrderedMap κ α} (h : ∀ k, m.get? k = n.get? k) :
    m = n := by
  obtain ⟨as, ha⟩ := m
  obtain ⟨bs, hb⟩ := n
  have : as = bs := entries_eq_of_mem_iff ha hb fun p => by
    have := h p.1
    have hm := get?_eq_some_iff (m := ⟨as, ha⟩) (k := p.1) (v := p.2)
    have hn := get?_eq_some_iff (m := ⟨bs, hb⟩) (k := p.1) (v := p.2)
    rw [this, hn] at hm
    exact hm.symm
  subst this
  rfl

/-- To store the value that a key has already changes nothing. -/
theorem insert_of_get? [Std.TransOrd κ] {m : OrderedMap κ α} {k : κ} {v : α}
    (h : m.get? k = some v) : m.insert k v = m := by
  refine ext_get? fun k' => ?_
  by_cases hk : k' = k
  · rw [hk, get?_insert_self, h]
  · exact get?_insert_of_ne m v hk

end Lawful

end OrderedMap

/-- A finite set in ascending order: a map without values. -/
abbrev OrderedSet (κ : Type) [Ord κ] := OrderedMap κ Unit

namespace OrderedSet

variable {κ : Type} [Ord κ]

/-- The members in order. -/
def toList (s : OrderedSet κ) : List κ := s.keys

/-- Add a member. -/
def add [Std.TransOrd κ] (s : OrderedSet κ) (k : κ) : OrderedSet κ := OrderedMap.insert s k ()

/-- The set of the members of a list. -/
def ofList [Std.TransOrd κ] (ks : List κ) : OrderedSet κ := ks.foldl add OrderedMap.empty

theorem mem_toList_iff [Std.LawfulEqOrd κ] {s : OrderedSet κ} {k : κ} :
    k ∈ toList s ↔ OrderedMap.contains s k = true := by
  rw [OrderedMap.contains_iff]
  simp only [toList, OrderedMap.keys, OrderedMap.get?_eq_some_iff, List.mem_map]
  constructor
  · rintro ⟨⟨_, _⟩, h, rfl⟩
    exact ⟨(), h⟩
  · rintro ⟨v, h⟩
    exact ⟨(k, v), h, rfl⟩

theorem nodup_toList [Std.LawfulEqOrd κ] (s : OrderedSet κ) : (toList s).Nodup := by
  rw [toList, OrderedMap.keys, List.Nodup, List.pairwise_map]
  exact OrderedMap.pairwise_ne s

theorem contains_add [Std.TransOrd κ] [Std.LawfulEqOrd κ] [DecidableEq κ] {s : OrderedSet κ}
    {k k' : κ} : OrderedMap.contains (add s k) k' = true ↔
      k' = k ∨ OrderedMap.contains s k' = true := by
  rw [OrderedMap.contains_iff, OrderedMap.contains_iff, add, OrderedMap.get?_insert]
  by_cases h : k' = k <;> simp [h]

theorem contains_erase [Std.LawfulEqOrd κ] [DecidableEq κ] {s : OrderedSet κ} {k k' : κ} :
    OrderedMap.contains (OrderedMap.erase s k) k' = true ↔
      k' ≠ k ∧ OrderedMap.contains s k' = true := by
  rw [OrderedMap.contains_iff, OrderedMap.contains_iff, OrderedMap.get?_erase]
  by_cases h : k' = k <;> simp [h]

/-- Sets are determined by their members. -/
theorem ext_contains [Std.TransOrd κ] [Std.LawfulEqOrd κ] {s t : OrderedSet κ}
    (h : ∀ k, OrderedMap.contains s k = true ↔ OrderedMap.contains t k = true) : s = t := by
  refine OrderedMap.ext_get? fun k => Option.ext fun v => ?_
  have hk := h k
  rw [OrderedMap.contains_iff, OrderedMap.contains_iff] at hk
  -- There is only one value that can be stored.
  constructor
  · intro hv
    obtain ⟨_, hv'⟩ := hk.mp ⟨v, hv⟩
    exact hv'
  · intro hv
    obtain ⟨_, hv'⟩ := hk.mpr ⟨v, hv⟩
    exact hv'

@[simp] theorem contains_empty (k : κ) :
    OrderedMap.contains (OrderedMap.empty : OrderedSet κ) k = false := rfl

end OrderedSet

end TensorIR
