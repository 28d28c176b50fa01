import Mathlib.Algebra.BigOperators.Group.List.Basic
import Mathlib.Data.List.Nodup

/-!
# Keyed lists as finite maps

A linked list searched from its head for a key behaves like a finite map as long
as no key occurs twice. Insertion updates the entry of a known key in place and
puts an unknown key in front; removal unlinks the first entry of the key.
-/

namespace CommunicationProtocols.Library.KeyedList

variable {Entry Key : Type*} [DecidableEq Key] (key : Entry → Key)

/-- No key occurs twice. -/
def Distinct (entries : List Entry) : Prop := (entries.map key).Nodup

/-- The first entry of a key. -/
def find (k : Key) : List Entry → Option Entry
  | [] => none
  | first :: rest => if key first = k then some first else find k rest

/-- Replace the first entry of the same key, if there is one. -/
def update (entry : Entry) : List Entry → Option (List Entry)
  | [] => none
  | first :: rest =>
      if key first = key entry then some (entry :: rest)
      else (update entry rest).map (first :: ·)

/-- Update the entry of the key in place, or put the new entry in front. -/
def put (entry : Entry) (entries : List Entry) : List Entry :=
  (update key entry entries).getD (entry :: entries)

/-- Unlink the first entry of a key. -/
def remove (k : Key) : List Entry → List Entry
  | [] => []
  | first :: rest => if key first = k then rest else first :: remove k rest

variable {key}

omit [DecidableEq Key] in
/-- Keys are distinct if the first one is none of the others, and those are distinct. -/
theorem distinct_cons_iff {entry : Entry} {entries : List Entry} :
    Distinct key (entry :: entries) ↔
      (∀ other ∈ entries, key other ≠ key entry) ∧ Distinct key entries := by
  simp only [Distinct, List.map_cons, List.nodup_cons, List.mem_map, not_exists, not_and, ne_eq]

omit [DecidableEq Key] in
/-- Distinct keys stay distinct in any order. -/
theorem Distinct.perm {entries entries' : List Entry} (distinct : Distinct key entries)
    (perm : entries'.Perm entries) : Distinct key entries' :=
  (perm.map key).nodup_iff.mpr distinct

/-! ## Search -/

/-- What is found is an entry with the key. -/
theorem find_eq_some {k : Key} {entries : List Entry} {entry : Entry}
    (found : find key k entries = some entry) : entry ∈ entries ∧ key entry = k := by
  induction entries with
  | nil => cases found
  | cons first rest ih =>
      unfold find at found
      split at found
      case isTrue here =>
        obtain rfl := Option.some.inj found
        exact ⟨List.mem_cons_self, here⟩
      case isFalse =>
        obtain ⟨member, same⟩ := ih found
        exact ⟨List.mem_cons_of_mem _ member, same⟩

/-- Nothing is found exactly if no entry has the key. -/
theorem find_eq_none_iff {k : Key} {entries : List Entry} :
    find key k entries = none ↔ ∀ entry ∈ entries, key entry ≠ k := by
  induction entries with
  | nil => simp [find]
  | cons first rest ih =>
      unfold find
      split
      case isTrue here => simp [here]
      case isFalse differs => simp [differs, ih]

/-- Only the keys of the entries are looked at. -/
theorem find_congr {key' : Entry → Key} {k : Key} {entries : List Entry}
    (same : ∀ entry ∈ entries, key' entry = key entry) :
    find key' k entries = find key k entries := by
  induction entries with
  | nil => rfl
  | cons first rest ih =>
      rw [List.forall_mem_cons] at same
      rw [find, find, same.1, ih same.2]

/-- For the key of an entry something is found. -/
theorem exists_find_of_mem {entries : List Entry} {entry : Entry} (member : entry ∈ entries) :
    ∃ first, find key (key entry) entries = some first := by
  rw [← Option.ne_none_iff_exists']
  intro missed
  exact find_eq_none_iff.mp missed entry member rfl

/-- Among distinct keys every entry is the one that is found. -/
theorem find_of_mem {entries : List Entry} {entry : Entry} (distinct : Distinct key entries)
    (member : entry ∈ entries) : find key (key entry) entries = some entry := by
  have exists_first : ∃ first, find key (key entry) entries = some first :=
    exists_find_of_mem member
  obtain ⟨first, found⟩ := exists_first
  obtain ⟨firstMember, sameKey⟩ := find_eq_some found
  rw [found, List.inj_on_of_nodup_map distinct firstMember member sameKey]

/-- Among distinct keys the entries of a key are the one that is found, if any. -/
theorem filter_key_eq {k : Key} {entries : List Entry} (distinct : Distinct key entries) :
    entries.filter (fun entry => key entry = k) = (find key k entries).toList := by
  induction entries with
  | nil => rfl
  | cons first rest ih =>
      obtain ⟨fresh, later⟩ := distinct_cons_iff.mp distinct
      by_cases here : key first = k
      · have none_left : find key k rest = none := find_eq_none_iff.mpr (here ▸ fresh)
        simp [find, here, ih later, none_left]
      · simp [find, here, ih later]

/-! ## Insertion -/

/-- There is nothing to update exactly if no entry has the key. -/
theorem update_eq_none_iff {entry : Entry} {entries : List Entry} :
    update key entry entries = none ↔ ∀ other ∈ entries, key other ≠ key entry := by
  induction entries with
  | nil => simp [update]
  | cons first rest ih =>
      unfold update
      split
      case isTrue here => simp [here]
      case isFalse differs => simp [differs, ih]

/-- An update keeps the keys, in their order. -/
theorem map_key_update {entry : Entry} {entries updated : List Entry}
    (done : update key entry entries = some updated) : updated.map key = entries.map key := by
  induction entries generalizing updated with
  | nil => cases done
  | cons first rest ih =>
      unfold update at done
      split at done
      case isTrue here =>
        obtain rfl := Option.some.inj done
        simp [here]
      case isFalse =>
        obtain ⟨tail, inner, rfl⟩ := Option.map_eq_some_iff.mp done
        simp [ih inner]

/-- After an update its key finds the new entry, every other key what it found before. -/
theorem find_update {k : Key} {entry : Entry} {entries updated : List Entry}
    (done : update key entry entries = some updated) :
    find key k updated = if key entry = k then some entry else find key k entries := by
  induction entries generalizing updated with
  | nil => cases done
  | cons first rest ih =>
      unfold update at done
      split at done
      case isTrue here =>
        obtain rfl := Option.some.inj done
        by_cases same : key entry = k
        · simp [find, same]
        · simp [find, same, here]
      case isFalse differs =>
        obtain ⟨tail, inner, rfl⟩ := Option.map_eq_some_iff.mp done
        by_cases first_is : key first = k
        · have other : key entry ≠ k := fun same => differs (first_is.trans same.symm)
          simp [find, first_is, other]
        · simp [find, first_is, ih inner]

/-- Insertion sets the entry of its key and no other. -/
theorem find_put (k : Key) (entry : Entry) (entries : List Entry) :
    find key k (put key entry entries) =
      if key entry = k then some entry else find key k entries := by
  unfold put
  cases done : update key entry entries with
  | none => simp [find]
  | some updated => simpa using find_update done

/-- Putting an entry keeps the keys distinct. -/
theorem distinct_put {entries : List Entry} (entry : Entry) (distinct : Distinct key entries) :
    Distinct key (put key entry entries) := by
  unfold put
  cases done : update key entry entries with
  | none => exact distinct_cons_iff.mpr ⟨update_eq_none_iff.mp done, distinct⟩
  | some updated =>
      rw [Option.getD_some, Distinct, map_key_update done]
      exact distinct

/-- An update adds its own entry only. -/
theorem mem_update {entry other : Entry} {entries updated : List Entry}
    (done : update key entry entries = some updated) (member : other ∈ updated) :
    other = entry ∨ other ∈ entries := by
  induction entries generalizing updated with
  | nil => cases done
  | cons first rest ih =>
      unfold update at done
      split at done
      case isTrue =>
        obtain rfl := Option.some.inj done
        rcases List.mem_cons.mp member with rfl | later
        · exact .inl rfl
        · exact .inr (List.mem_cons_of_mem _ later)
      case isFalse =>
        obtain ⟨tail, inner, rfl⟩ := Option.map_eq_some_iff.mp done
        rcases List.mem_cons.mp member with rfl | later
        · exact .inr List.mem_cons_self
        · exact (ih inner later).imp_right (List.mem_cons_of_mem _)

/-- Insertion brings in nothing but its entry. -/
theorem mem_put {entry other : Entry} {entries : List Entry}
    (member : other ∈ put key entry entries) : other = entry ∨ other ∈ entries := by
  unfold put at member
  cases done : update key entry entries with
  | none =>
      rw [done] at member
      exact List.mem_cons.mp member
  | some updated =>
      rw [done] at member
      exact mem_update done member

/-! ## Removal -/

/-- Removing adds nothing and keeps the order. -/
theorem remove_sublist (k : Key) (entries : List Entry) :
    (remove key k entries).Sublist entries := by
  induction entries with
  | nil => exact .refl _
  | cons first rest ih =>
      unfold remove
      split
      · exact List.sublist_cons_self first rest
      · exact ih.cons_cons first

/-- Removing keeps the keys distinct. -/
theorem distinct_remove {entries : List Entry} (k : Key) (distinct : Distinct key entries) :
    Distinct key (remove key k entries) :=
  distinct.sublist ((remove_sublist k entries).map key)

/-- Among distinct keys removal leaves exactly the entries of the other keys. -/
theorem mem_remove_iff {k : Key} {entries : List Entry} (distinct : Distinct key entries)
    {entry : Entry} : entry ∈ remove key k entries ↔ entry ∈ entries ∧ key entry ≠ k := by
  induction entries with
  | nil => simp [remove]
  | cons first rest ih =>
      obtain ⟨fresh, later⟩ := distinct_cons_iff.mp distinct
      unfold remove
      split
      case isTrue here =>
        constructor
        · intro member
          exact ⟨List.mem_cons_of_mem _ member, here ▸ fresh entry member⟩
        · rintro ⟨member, differs⟩
          rcases List.mem_cons.mp member with rfl | member
          · exact absurd here differs
          · exact member
      case isFalse differs =>
        rw [List.mem_cons, ih later, List.mem_cons]
        constructor
        · rintro (rfl | ⟨member, other⟩)
          · exact ⟨.inl rfl, differs⟩
          · exact ⟨.inr member, other⟩
        · rintro ⟨rfl | member, other⟩
          · exact .inl rfl
          · exact .inr ⟨member, other⟩

/-- Removal clears its key and no other. -/
theorem find_remove {k k' : Key} {entries : List Entry} (distinct : Distinct key entries) :
    find key k' (remove key k entries) = if k' = k then none else find key k' entries := by
  by_cases same : k' = k
  · rw [if_pos same, same]
    exact find_eq_none_iff.mpr fun entry member => ((mem_remove_iff distinct).mp member).2
  · rw [if_neg same]
    cases found : find key k' entries with
    | none =>
        have absent := find_eq_none_iff.mp found
        exact find_eq_none_iff.mpr fun entry member =>
          absent entry ((mem_remove_iff distinct).mp member).1
    | some entry =>
        obtain ⟨member, rfl⟩ := find_eq_some found
        exact find_of_mem (distinct_remove k distinct)
          ((mem_remove_iff distinct).mpr ⟨member, same⟩)

/-- Removal takes out the entry the search finds. -/
theorem perm_remove {k : Key} {entries : List Entry} {entry : Entry}
    (found : find key k entries = some entry) :
    entries.Perm (entry :: remove key k entries) := by
  induction entries with
  | nil => cases found
  | cons first rest ih =>
      rw [find] at found
      rw [remove]
      split_ifs at found ⊢ with same
      · cases found
        exact .refl _
      · exact ((ih found).cons first).trans (.swap entry first _)

/-! ## Sums -/

/-- At most one entry contributes to a sum over the entries of one key. -/
theorem sum_map_ite_key {Amount : Type*} [AddCommMonoid Amount] {holds : Entry → Prop}
    [DecidablePred holds] {entries : List Entry} (distinct : Distinct key entries) {k : Key}
    {owned : Prop} [Decidable owned]
    (owner : owned ↔ ∃ entry ∈ entries, key entry = k ∧ holds entry) (amount : Amount) :
    (entries.map fun entry => if key entry = k ∧ holds entry then amount else 0).sum =
      if owned then amount else 0 := by
  induction entries generalizing owned with
  | nil => simp [owner]
  | cons first rest ih =>
      obtain ⟨others, later⟩ := distinct_cons_iff.mp distinct
      rw [List.map_cons, List.sum_cons]
      by_cases here : key first = k
      · -- no later entry has the key
        have nobody : ¬∃ entry ∈ rest, key entry = k ∧ holds entry := by
          rintro ⟨entry, member, same, -⟩
          exact others entry member (same.trans here.symm)
        rw [ih later (iff_of_false not_false nobody), if_neg not_false, add_zero]
        simp only [owner, List.exists_mem_cons_iff, here, true_and, nobody, or_false]
      · have elsewhere : owned ↔ ∃ entry ∈ rest, key entry = k ∧ holds entry := by
          rw [owner, List.exists_mem_cons_iff]
          simp only [here, false_and, false_or]
        rw [if_neg fun both => here both.1, zero_add]
        exact ih later elsewhere

end CommunicationProtocols.Library.KeyedList
