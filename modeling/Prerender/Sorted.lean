/-
Association lists in ascending order of their text keys. The order is by code
point, which is the byte order of the encoded text. Insertion keeps the order
and replaces the value of a key that is already there; both are stated below.
-/
namespace Prerender

/-- The keys of an association list ascend strictly. -/
abbrev Ascending {α : Type} (entries : List (String × α)) : Prop :=
  entries.Pairwise fun a b => a.1 < b.1

/-- Look-up in an association list goes by the first entry with the key. -/
theorem lookup_cons_ite {κ α : Type} [DecidableEq κ] (k l : κ) (v : α)
    (rest : List (κ × α)) :
    ((l, v) :: rest).lookup k = if k = l then some v else rest.lookup k := by
  by_cases h : k = l
  · simp [h]
  · simp [List.lookup_cons, beq_eq_false_iff_ne.2 h, h]

namespace Sorted

variable {α : Type}

/-- The entries with `key` bound to `value`, placed where the order wants it. -/
def insert (key : String) (value : α) : List (String × α) → List (String × α)
  | [] => [(key, value)]
  | (k, v) :: rest =>
      if key < k then (key, value) :: (k, v) :: rest
      else if key = k then (key, value) :: rest
      else (k, v) :: insert key value rest

/-- The entries in ascending order, the last one of each key kept. -/
def ofList (entries : List (String × α)) : List (String × α) :=
  entries.foldl (fun sorted (key, value) => insert key value sorted) []

/-- What is looked up after an insertion: the new value under its key, else
what was there. -/
theorem lookup_insert (key k : String) (value : α)
    (entries : List (String × α)) :
    (insert key value entries).lookup k = if k = key then some value
      else entries.lookup k := by
  induction entries with
  | nil => exact lookup_cons_ite k key value []
  | cons head rest ih =>
      obtain ⟨l, v⟩ := head
      rw [insert]
      split
      · exact lookup_cons_ite k key value _
      · split
        · next heq =>
          subst heq
          rw [lookup_cons_ite, lookup_cons_ite]
          split <;> rfl
        · next hne =>
          rw [lookup_cons_ite, lookup_cons_ite, ih]
          by_cases h : k = l
          · rw [if_pos h, if_neg fun hk => hne (hk.symm.trans h), if_pos h]
          · rw [if_neg h, if_neg h]

/-- An entry after an insertion is the new one or was there before. -/
theorem mem_insert {key : String} {value : α} {entry : String × α}
    {entries : List (String × α)} (h : entry ∈ insert key value entries) :
    entry = (key, value) ∨ entry ∈ entries := by
  induction entries with
  | nil => simpa [insert] using h
  | cons head rest ih =>
      obtain ⟨k, v⟩ := head
      rw [insert] at h
      split at h
      · simpa using h
      · split at h
        · rcases List.mem_cons.1 h with h | h
          · exact Or.inl h
          · exact Or.inr (List.mem_cons_of_mem _ h)
        · rcases List.mem_cons.1 h with h | h
          · exact Or.inr (h ▸ List.mem_cons_self)
          · exact (ih h).imp_right (List.mem_cons_of_mem _)

/-- The keys after an insertion are the new one and those from before. -/
theorem mem_keys_insert {key k : String} {value : α}
    {entries : List (String × α)} :
    k ∈ (insert key value entries).map Prod.fst ↔ k = key
      ∨ k ∈ entries.map Prod.fst := by
  induction entries with
  | nil => simp [insert]
  | cons head rest ih =>
      obtain ⟨l, v⟩ := head
      rw [insert]
      split
      · rw [List.map_cons, List.mem_cons]
      · split
        · next heq =>
          subst heq
          simp only [List.map_cons, List.mem_cons]
          exact ⟨Or.imp_right Or.inr, fun h => h.elim Or.inl id⟩
        · rw [List.map_cons, List.mem_cons, ih, List.map_cons, List.mem_cons]
          exact or_left_comm

/-- Insertion keeps the order. -/
theorem ascending_insert {key : String} {value : α}
    {entries : List (String × α)}
    (h : Ascending entries) : Ascending (insert key value entries) := by
  induction entries with
  | nil => simp [Ascending, insert]
  | cons head rest ih =>
      obtain ⟨k, v⟩ := head
      obtain ⟨hhead, hrest⟩ := List.pairwise_cons.1 h
      rw [insert]
      split
      · next hlt =>
        refine List.pairwise_cons.2 ⟨fun entry hentry => ?_, h⟩
        rcases List.mem_cons.1 hentry with rfl | hentry
        · exact hlt
        · exact String.lt_trans hlt (hhead entry hentry)
      · split
        · next heq =>
          exact List.pairwise_cons.2
            ⟨fun entry hentry => heq ▸ hhead entry hentry, hrest⟩
        · next hlt hne =>
          refine List.pairwise_cons.2 ⟨fun entry hentry => ?_, ih hrest⟩
          rcases mem_insert hentry with rfl | hentry
          · exact String.not_le.1 fun hle =>
              hne (String.le_antisymm hle (String.not_lt.1 hlt))
          · exact hhead entry hentry

/-- Sorting gives an ascending list, whatever the order before. -/
theorem ascending_ofList (entries : List (String × α)) :
    Ascending (ofList entries) := by
  unfold ofList
  suffices ∀ sorted : List (String × α), Ascending sorted →
      Ascending (entries.foldl
        (fun sorted (key, value) => insert key value sorted) sorted) from
    this [] List.Pairwise.nil
  induction entries with
  | nil => exact fun _ h => h
  | cons head rest ih => exact fun sorted h => ih _ (ascending_insert h)

end Sorted
end Prerender
