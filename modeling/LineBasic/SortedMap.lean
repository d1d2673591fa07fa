/-!
# Maps with their keys in order

A `SortedMap κ ν` is a list of keys and values in strictly increasing order of the keys. Two maps
with the same values at the same keys are equal (`SortedMap.ext_find?`), so equality of maps means
equality of what they hold, whatever the order they were filled in.

Every operation is described by what it does to `find?`: see `find?_insert`, `find?_erase` and
`find?_empty`. `next?` is the step of a traversal in increasing order.
-/

namespace LineBasic

/-- Keys and values, in strictly increasing order of the keys. -/
@[ext]
structure SortedMap (κ : Type) (ν : Type) [LT κ] where
  toList : List (κ × ν)
  sorted : toList.Pairwise fun a b => a.1 < b.1

namespace SortedMap

variable {κ ν : Type}

section Operations

variable [LT κ]

/-- The map that holds nothing. -/
def empty : SortedMap κ ν := ⟨[], .nil⟩

instance : Inhabited (SortedMap κ ν) := ⟨empty⟩

instance [DecidableEq κ] [DecidableEq ν] : DecidableEq (SortedMap κ ν) := fun a b =>
  decidable_of_iff (a.toList = b.toList) ⟨SortedMap.ext, congrArg toList⟩

/-- How many keys are held. -/
def size (map : SortedMap κ ν) : Nat := map.toList.length

/-- Whether no key is held. -/
def isEmpty (map : SortedMap κ ν) : Bool := map.toList.isEmpty

/-- The keys held, in increasing order. -/
def keys (map : SortedMap κ ν) : List κ := map.toList.map (·.1)

/-- The least key held. -/
def first? (map : SortedMap κ ν) : Option κ := map.toList.head?.map (·.1)

/-- The value held at a key. -/
def find? [DecidableEq κ] (map : SortedMap κ ν) (key : κ) : Option ν :=
  (map.toList.find? fun entry => entry.1 = key).map (·.2)

/-- Whether a key is held. -/
def contains [DecidableEq κ] (map : SortedMap κ ν) (key : κ) : Bool := (map.find? key).isSome

/-- The least key held above a key, which need not be held itself. -/
def next? [DecidableLT κ] (map : SortedMap κ ν) (after : κ) : Option κ :=
  (map.toList.find? fun entry => after < entry.1).map (·.1)

/-- The keys met on a walk from one key to the next above it, at most `bound` of them. -/
def follow [DecidableLT κ] (map : SortedMap κ ν) : Nat → Option κ → List κ
  | 0, _ => []
  | _, none => []
  | bound + 1, some key => key :: map.follow bound (map.next? key)

/-- The keys met on a walk from the first key to the last. -/
def walk [DecidableLT κ] (map : SortedMap κ ν) : List κ := map.follow map.size map.first?

/-- Keys and values with one entry put in its place; an entry of the same key gives way. -/
def insertEntry [DecidableLT κ] [DecidableEq κ] (key : κ) (value : ν) :
    List (κ × ν) → List (κ × ν)
  | [] => [(key, value)]
  | entry :: rest =>
    if key < entry.1 then (key, value) :: entry :: rest
    else if key = entry.1 then (key, value) :: rest
    else entry :: insertEntry key value rest

theorem mem_insertEntry [DecidableLT κ] [DecidableEq κ] {key : κ} {value : ν}
    {entries : List (κ × ν)} {e : κ × ν} (h : e ∈ insertEntry key value entries) :
    e = (key, value) ∨ e ∈ entries := by
  induction entries with
  | nil => simpa [insertEntry] using h
  | cons entry rest ih =>
    unfold insertEntry at h
    split at h
    · simpa using h
    · split at h
      · rcases List.mem_cons.1 h with h | h
        · exact .inl h
        · exact .inr (List.mem_cons_of_mem _ h)
      · rcases List.mem_cons.1 h with h | h
        · exact .inr (h ▸ List.mem_cons_self)
        · exact (ih h).imp_right (List.mem_cons_of_mem _)

/-- Without the entry at a key, if there is one. -/
def erase [DecidableEq κ] (map : SortedMap κ ν) (key : κ) : SortedMap κ ν :=
  ⟨map.toList.filter fun entry => entry.1 ≠ key, map.sorted.filter _⟩

end Operations

section Order

variable [LE κ] [LT κ] [DecidableLT κ] [DecidableEq κ] [Std.IsLinearOrder κ]
  [Std.LawfulOrderLT κ]

theorem insertEntry_sorted (key : κ) (value : ν) {entries : List (κ × ν)}
    (sorted : entries.Pairwise fun a b => a.1 < b.1) :
    (insertEntry key value entries).Pairwise fun a b => a.1 < b.1 := by
  induction entries with
  | nil => simp [insertEntry]
  | cons entry rest ih =>
    obtain ⟨above, sorted'⟩ := List.pairwise_cons.1 sorted
    unfold insertEntry
    split
    next below =>
      refine List.pairwise_cons.2 ⟨fun e he => ?_, sorted⟩
      rcases List.mem_cons.1 he with rfl | he
      · exact below
      · exact Std.lt_trans below (above e he)
    next notBelow =>
      split
      next same => exact List.pairwise_cons.2 ⟨fun e he => same ▸ above e he, sorted'⟩
      next differ =>
        refine List.pairwise_cons.2 ⟨fun e he => ?_, ih sorted'⟩
        rcases mem_insertEntry he with rfl | he
        · exact Std.lt_of_le_of_ne (Std.not_lt.1 notBelow) (Ne.symm differ)
        · exact above e he

/-- With a value at a key, in place of the value that was held there. -/
def insert (map : SortedMap κ ν) (key : κ) (value : ν) : SortedMap κ ν :=
  ⟨insertEntry key value map.toList, insertEntry_sorted key value map.sorted⟩

end Order

/-! ### What the operations do to the values found -/

section Find

variable [LT κ] [DecidableEq κ]

@[simp] theorem find?_empty (key : κ) : (empty : SortedMap κ ν).find? key = none := rfl

@[simp] theorem find?_erase (map : SortedMap κ ν) (key k : κ) :
    (map.erase key).find? k = if k = key then none else map.find? k := by
  simp only [find?, erase, List.find?_filter]
  split
  next h =>
    subst h
    simp only [Option.map_eq_none_iff, List.find?_eq_none]
    simp
  next h =>
    congr 2
    funext entry
    by_cases he : entry.1 = k <;> simp [he, h]

end Find

section FindOrder

variable [LE κ] [LT κ] [DecidableLT κ] [DecidableEq κ] [Std.IsLinearOrder κ]
  [Std.LawfulOrderLT κ]

@[simp] theorem find?_insert (map : SortedMap κ ν) (key k : κ) (value : ν) :
    (map.insert key value).find? k = if k = key then some value else map.find? k := by
  obtain ⟨entries, sorted⟩ := map
  simp only [find?, insert]
  induction entries with
  | nil => by_cases h : key = k <;> simp [insertEntry, h, eq_comm]
  | cons entry rest ih =>
    obtain ⟨above, sorted'⟩ := List.pairwise_cons.1 sorted
    have ih := ih sorted'
    unfold insertEntry
    split
    next below =>
      by_cases h : k = key
      · subst h; simp
      · simp [h, Ne.symm h]
    next notBelow =>
      split
      next same =>
        by_cases h : k = key
        · subst h; simp
        · simp [h, Ne.symm h, show ¬ entry.1 = k from same ▸ Ne.symm h]
      next differ =>
        by_cases h : entry.1 = k
        · subst h
          simp [Ne.symm differ]
        · simpa [List.find?_cons, h] using ih

omit [DecidableLT κ] [Std.IsLinearOrder κ] in
theorem find?_eq_some_iff (map : SortedMap κ ν) {key : κ} {value : ν} :
    map.find? key = some value ↔ (key, value) ∈ map.toList := by
  obtain ⟨entries, sorted⟩ := map
  simp only [find?]
  induction entries with
  | nil => simp
  | cons entry rest ih =>
    obtain ⟨above, sorted'⟩ := List.pairwise_cons.1 sorted
    have ih := ih sorted'
    by_cases h : entry.1 = key
    · subst h
      have absent : ∀ v, (entry.1, v) ∉ rest := fun v hv => Std.lt_irrefl (above (entry.1, v) hv)
      simp only [List.find?_cons, decide_true, Option.map_some, Option.some.injEq, List.mem_cons,
        absent, or_false, Prod.ext_iff, true_and]
      exact eq_comm
    · have differ : (key, value) ≠ entry := fun e => h (e ▸ rfl)
      simpa [List.find?_cons, h, differ] using ih

omit [DecidableLT κ] in
/-- Maps with the same values at the same keys are equal. -/
theorem ext_find? {a b : SortedMap κ ν} (same : ∀ key, a.find? key = b.find? key) : a = b := by
  refine SortedMap.ext ?_
  have members : ∀ e, e ∈ a.toList ↔ e ∈ b.toList := fun e => by
    rw [← find?_eq_some_iff a, ← find?_eq_some_iff b, same]
  obtain ⟨as, sortedA⟩ := a
  obtain ⟨bs, sortedB⟩ := b
  clear same
  simp only at members ⊢
  induction as generalizing bs with
  | nil =>
    cases bs with
    | nil => rfl
    | cons e _ => exact absurd ((members e).2 List.mem_cons_self) (by simp)
  | cons a as ih =>
    cases bs with
    | nil => exact absurd ((members a).1 List.mem_cons_self) (by simp)
    | cons b bs =>
      obtain ⟨aboveA, restA⟩ := List.pairwise_cons.1 sortedA
      obtain ⟨aboveB, restB⟩ := List.pairwise_cons.1 sortedB
      have heads : a = b := by
        rcases List.mem_cons.1 ((members a).1 List.mem_cons_self) with h | inB
        · exact h
        · rcases List.mem_cons.1 ((members b).2 List.mem_cons_self) with h | inA
          · exact h.symm
          · exact absurd (Std.lt_trans (aboveB a inB) (aboveA b inA)) Std.lt_irrefl
      subst heads
      congr 1
      refine ih restA bs restB fun e => ⟨fun he => ?_, fun he => ?_⟩
      · rcases List.mem_cons.1 ((members e).1 (List.mem_cons_of_mem _ he)) with rfl | h
        · exact absurd (aboveA _ he) Std.lt_irrefl
        · exact h
      · rcases List.mem_cons.1 ((members e).2 (List.mem_cons_of_mem _ he)) with rfl | h
        · exact absurd (aboveB _ he) Std.lt_irrefl
        · exact h

/-- Entries put into a map one after the other are found before what the map held. -/
theorem find?_foldl_insert {entries : List (κ × ν)}
    (sorted : entries.Pairwise fun a b => a.1 < b.1) (map : SortedMap κ ν) (key : κ) :
    (entries.foldl (fun map entry => map.insert entry.1 entry.2) map).find? key =
      ((entries.find? fun entry => entry.1 = key).map (·.2)).or (map.find? key) := by
  induction entries generalizing map with
  | nil => rfl
  | cons entry rest ih =>
    obtain ⟨above, sorted'⟩ := List.pairwise_cons.1 sorted
    rw [List.foldl_cons, ih sorted', find?_insert]
    by_cases h : entry.1 = key
    · subst h
      have absent : rest.find? (fun e => e.1 = entry.1) = none := by
        refine List.find?_eq_none.2 fun e he same => ?_
        rw [decide_eq_true_iff] at same
        exact Std.lt_irrefl (same ▸ above e he)
      simp [absent]
    · simp [h, Ne.symm h]

/-- A map is filled again by its own entries. -/
theorem foldl_insert_toList (map : SortedMap κ ν) :
    map.toList.foldl (fun map entry => map.insert entry.1 entry.2) empty = map := by
  refine ext_find? fun key => ?_
  rw [find?_foldl_insert map.sorted, find?_empty, Option.or_none]
  rfl

end FindOrder

end SortedMap

end LineBasic
