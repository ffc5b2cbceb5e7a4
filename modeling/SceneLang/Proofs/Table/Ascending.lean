import Mathlib.Data.List.Induction
import SceneLang.Table

/-!
# Tables in ascending order

The names of a table stand in ascending order, so each of them stands there once.  As a list of
entries without an order, a table with a new entry is the entry along with what is left of the
table when the name is erased.
-/

namespace SceneLang
namespace Table

variable {α : Type} {table : Table α} {key : String}

/-- The names are in ascending order. -/
def Ascending (table : Table α) : Prop :=
  table.Pairwise fun a b => a.1 < b.1

theorem ascending_nil : Ascending ([] : Table α) :=
  List.Pairwise.nil

theorem Ascending.erase (h : Ascending table) (key : String) : Ascending (table.erase key) :=
  List.Pairwise.filter _ h

theorem ne_of_lt {a b : String} (h : a < b) : a ≠ b := by
  intro heq
  rw [heq] at h
  exact String.lt_irrefl b h

theorem fst_mem_insert {value : α} {entry : String × α} (h : entry ∈ table.insert key value) :
    entry.1 = key ∨ entry ∈ table := by
  induction table with
  | nil =>
      left
      rw [List.mem_singleton.mp h]
  | cons first rest ih =>
      rw [insert] at h
      split at h
      · rcases List.mem_cons.mp h with rfl | hmem
        · exact .inl rfl
        · exact .inr hmem
      · split at h
        · rcases List.mem_cons.mp h with rfl | hmem
          · exact .inl rfl
          · exact .inr (List.mem_cons_of_mem _ hmem)
        · rcases List.mem_cons.mp h with rfl | hmem
          · exact .inr List.mem_cons_self
          · exact (ih hmem).imp id (List.mem_cons_of_mem _)

theorem Ascending.insert (h : Ascending table) (key : String) (value : α) :
    Ascending (table.insert key value) := by
  induction table with
  | nil => simp [Table.insert, Ascending]
  | cons first rest ih =>
      obtain ⟨hfirst, hrest⟩ := List.pairwise_cons.mp h
      rw [Table.insert]
      by_cases hlt : key < first.1
      · rw [if_pos hlt]
        apply List.pairwise_cons.mpr
        constructor
        · intro entry hmem
          rcases List.mem_cons.mp hmem with rfl | hmem
          · exact hlt
          · exact String.lt_trans hlt (hfirst entry hmem)
        · exact h
      · rw [if_neg hlt]
        by_cases heq : key = first.1
        · subst heq
          rw [if_pos rfl]
          exact List.pairwise_cons.mpr ⟨hfirst, hrest⟩
        · rw [if_neg heq]
          apply List.pairwise_cons.mpr
          constructor
          · intro entry hmem
            rcases fst_mem_insert hmem with hkey | hmem
            · rw [hkey]
              apply String.not_le.mp
              intro hle
              exact heq (String.le_antisymm hle (String.not_lt.mp hlt))
            · exact hfirst entry hmem
          · exact ih hrest

/-- Nothing is erased where the name does not stand. -/
theorem erase_eq_self (h : ∀ entry ∈ table, entry.1 ≠ key) : table.erase key = table := by
  rw [erase, List.filter_eq_self]
  simpa using h

theorem Ascending.insert_perm (h : Ascending table) (key : String) (value : α) :
    (table.insert key value).Perm ((key, value) :: table.erase key) := by
  induction table with
  | nil => simp [Table.insert, Table.erase]
  | cons first rest ih =>
      obtain ⟨hfirst, hrest⟩ := List.pairwise_cons.mp h
      rw [Table.insert]
      by_cases hlt : key < first.1
      · have hgone : Table.erase key (first :: rest) = first :: rest := by
          apply erase_eq_self
          intro entry hmem
          rcases List.mem_cons.mp hmem with rfl | hmem
          · exact (ne_of_lt hlt).symm
          · exact (ne_of_lt (String.lt_trans hlt (hfirst entry hmem))).symm
        rw [if_pos hlt, hgone]
      · rw [if_neg hlt]
        by_cases heq : key = first.1
        · have hgone : Table.erase key (first :: rest) = rest := by
            have hrest := erase_eq_self fun entry hmem => (ne_of_lt (hfirst entry hmem)).symm
            rw [← heq] at hrest
            simpa [Table.erase, heq] using hrest
          rw [if_pos heq, hgone]
        · have hkept : Table.erase key (first :: rest) = first :: Table.erase key rest := by
            simp [Table.erase, Ne.symm heq]
          rw [if_neg heq, hkept]
          exact ((ih hrest).cons first).trans (List.Perm.swap _ _ _)

/-- A look-up finds the entry that stands in the table. -/
theorem Ascending.find?_eq_some_iff (h : Ascending table) {value : α} :
    table.find? key = some value ↔ (key, value) ∈ table := by
  induction table with
  | nil => simp [Table.find?]
  | cons first rest ih =>
      obtain ⟨k, v⟩ := first
      obtain ⟨hfirst, hrest⟩ := List.pairwise_cons.mp h
      rw [Table.find?]
      by_cases heq : k = key
      · have hgone : (key, value) ∉ rest := by
          intro hmem
          exact ne_of_lt (hfirst _ hmem) heq
        simp [heq, hgone, eq_comm]
      · simp [Ne.symm heq, ih hrest]

/-- What stood under a name before it is given an entry does not matter. -/
theorem Ascending.insert_erase (h : Ascending table) (key : String) (value : α) :
    (table.erase key).insert key value = table.insert key value := by
  have hboth : ((table.erase key).insert key value).Perm (table.insert key value) := by
    have herased := (h.erase key).insert_perm key value
    have htwice : (table.erase key).erase key = table.erase key := by
      simp [Table.erase, List.filter_filter]
    rw [htwice] at herased
    exact herased.trans (h.insert_perm key value).symm
  apply List.Perm.eq_of_pairwise _ ((h.erase key).insert key value) (h.insert key value) hboth
  intro a b _ _ hab hba
  exact absurd (String.lt_trans hab hba) (String.lt_irrefl a.1)

/-! ## Tables of lists of entries -/

variable {entries : List (String × α)}

theorem ofList_concat (entries : List (String × α)) (entry : String × α) :
    ofList (entries ++ [entry]) = (ofList entries).insert entry.1 entry.2 := by
  simp [ofList, List.foldl_append]

theorem ascending_ofList (entries : List (String × α)) : Ascending (ofList entries) := by
  induction entries using List.reverseRecOn with
  | nil => exact ascending_nil
  | append_singleton rest entry ih =>
      rw [ofList_concat]
      exact ih.insert entry.1 entry.2

/-- The last entry of a name counts. -/
theorem find?_ofList (entries : List (String × α)) (key : String) :
    (ofList entries).find? key = ((entries.filter (·.1 = key)).getLast?).map (·.2) := by
  induction entries using List.reverseRecOn with
  | nil => rfl
  | append_singleton rest entry ih =>
      rw [ofList_concat, find?_insert, ih, List.filter_append]
      by_cases heq : entry.1 = key
      · simp [heq]
      · simp [heq, Ne.symm heq]

/-- The entries of a list stand in its table as they are if no name comes up twice. -/
theorem ofList_perm (h : (entries.map (·.1)).Nodup) : (ofList entries).Perm entries := by
  induction entries using List.reverseRecOn with
  | nil => exact .rfl
  | append_singleton rest entry ih =>
      rw [List.map_append, List.nodup_append] at h
      obtain ⟨hrest, _, hnew⟩ := h
      have hperm := ih hrest
      have hgone : (ofList rest).erase entry.1 = ofList rest := by
        apply erase_eq_self
        intro other hmem heq
        have hother : other.1 ∈ rest.map (·.1) := List.mem_map_of_mem (hperm.mem_iff.mp hmem)
        exact hnew _ hother entry.1 (by simp) heq
      have hinsert := (ascending_ofList rest).insert_perm entry.1 entry.2
      rw [hgone] at hinsert
      rw [ofList_concat]
      exact hinsert.trans ((hperm.cons entry).trans (List.perm_append_singleton entry rest).symm)

end Table
end SceneLang
