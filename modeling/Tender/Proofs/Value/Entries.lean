/-
The entries of a map.

* `ofPairs_of_nodup` — entries with different keys are a map as they stand;
* `get?_of_mem`, `mem_of_get?` — each entry is found under its key, and nothing else is found;
* `mem_of_mem_putAll` — what is put into a map is all that is added to it;
* `get?_putAll_of_mem` — and all of it is found there;
* `putAll_append` — entries of other keys than those in front are put behind them.
-/
import Tender.Value.Basic

namespace Tender.Entries

variable {α : Type} {key : Text} {value : α} {entries : Entries α}

theorem put_of_not_mem (h : key ∉ keys entries) :
    put key value entries = entries ++ [(key, value)] := by
  induction entries with
  | nil => rfl
  | cons e entries ih =>
    obtain ⟨k, v⟩ := e
    rw [keys, List.map_cons, List.mem_cons, not_or] at h
    rw [put, if_neg (Ne.symm h.1), ih h.2]
    rfl

theorem putAll_of_nodup {more : Entries α} (h : (keys (entries ++ more)).Nodup) :
    putAll more entries = entries ++ more := by
  induction more generalizing entries with
  | nil => exact (List.append_nil entries).symm
  | cons e more ih =>
    obtain ⟨k, v⟩ := e
    have hk : k ∉ keys entries := by
      intro hmem
      rw [keys, List.map_append, List.nodup_append] at h
      exact h.2.2 k hmem k List.mem_cons_self rfl
    show putAll more (put k v entries) = _
    rw [put_of_not_mem hk, ih (by rwa [List.append_assoc]), List.append_assoc]
    rfl

theorem ofPairs_of_nodup (h : (keys entries).Nodup) : ofPairs entries = entries :=
  show putAll entries [] = [] ++ entries from putAll_of_nodup h

theorem get?_of_mem (h : (keys entries).Nodup) (hmem : (key, value) ∈ entries) :
    get? key entries = some value := by
  induction entries with
  | nil => cases hmem
  | cons e entries ih =>
    obtain ⟨k, v⟩ := e
    rw [keys, List.map_cons, List.nodup_cons] at h
    rcases List.mem_cons.1 hmem with heq | hmem
    · cases heq
      rw [get?, if_pos rfl]
    · have hne : k ≠ key := by
        rintro rfl
        exact h.1 (List.mem_map.2 ⟨_, hmem, rfl⟩)
      rw [get?, if_neg hne]
      exact ih h.2 hmem

theorem mem_of_get? (h : get? key entries = some value) : (key, value) ∈ entries := by
  induction entries with
  | nil => cases h
  | cons e entries ih =>
    obtain ⟨k, v⟩ := e
    rw [get?] at h
    split at h
    · rename_i hk
      cases h
      rw [hk]
      exact List.mem_cons_self
    · exact List.mem_cons_of_mem _ (ih h)

/-- What is in a map after something is put there was put there or was in it before. -/
theorem mem_of_mem_put {e : Text × α} (h : e ∈ put key value entries) :
    e = (key, value) ∨ e ∈ entries := by
  induction entries with
  | nil => exact .inl (List.mem_singleton.1 h)
  | cons f entries ih =>
    obtain ⟨k, v⟩ := f
    rw [put] at h
    split at h
    · rename_i hk
      rw [hk] at h
      exact (List.mem_cons.1 h).imp_right (List.mem_cons_of_mem _)
    · rcases List.mem_cons.1 h with rfl | h
      · exact .inr List.mem_cons_self
      · exact (ih h).imp_right (List.mem_cons_of_mem _)

theorem mem_of_mem_putAll {e : Text × α} {more : Entries α} (h : e ∈ putAll more entries) :
    e ∈ more ∨ e ∈ entries := by
  induction more generalizing entries with
  | nil => exact .inr h
  | cons f more ih =>
    rcases ih h with h | h
    · exact .inl (List.mem_cons_of_mem _ h)
    · rcases mem_of_mem_put h with rfl | h
      · exact .inl List.mem_cons_self
      · exact .inr h

theorem get?_putAll_of_not_mem {more : Entries α} (h : key ∉ keys more) :
    get? key (putAll more entries) = get? key entries := by
  induction more generalizing entries with
  | nil => rfl
  | cons f more ih =>
    rw [keys, List.map_cons, List.mem_cons, not_or] at h
    show get? key (putAll more (put f.1 f.2 entries)) = _
    rw [ih h.2, get?_put_other h.1]

/-- What is put into a map under keys of its own is found there. -/
theorem get?_putAll_of_mem {more : Entries α} (h : (keys more).Nodup)
    (hmem : (key, value) ∈ more) : get? key (putAll more entries) = some value := by
  induction more generalizing entries with
  | nil => cases hmem
  | cons f more ih =>
    rw [keys, List.map_cons, List.nodup_cons] at h
    rcases List.mem_cons.1 hmem with rfl | hmem
    · show get? key (putAll more (put key value entries)) = _
      rw [get?_putAll_of_not_mem h.1, get?_put_self]
    · exact ih h.2 hmem

theorem put_append {front : Entries α} (h : key ∉ keys front) :
    put key value (front ++ entries) = front ++ put key value entries := by
  induction front with
  | nil => rfl
  | cons e front ih =>
    obtain ⟨k, v⟩ := e
    rw [keys, List.map_cons, List.mem_cons, not_or] at h
    rw [List.cons_append, put, if_neg (Ne.symm h.1), ih h.2]
    rfl

theorem putAll_append {more front : Entries α} (h : ∀ k ∈ keys more, k ∉ keys front) :
    putAll more (front ++ entries) = front ++ putAll more entries := by
  induction more generalizing entries with
  | nil => rfl
  | cons e more ih =>
    obtain ⟨k, v⟩ := e
    show putAll more (put k v (front ++ entries)) = _
    rw [put_append (h k List.mem_cons_self), ih fun l hl => h l (List.mem_cons_of_mem _ hl)]
    rfl

theorem nodup_put (h : (keys entries).Nodup) : (keys (put key value entries)).Nodup := by
  by_cases hkey : key ∈ keys entries
  · rwa [keys_put_of_mem hkey]
  · rw [put_of_not_mem hkey, keys, List.map_append, List.nodup_append]
    refine ⟨h, List.nodup_cons.2 ⟨List.not_mem_nil, List.nodup_nil⟩, fun k hk l hl heq => hkey ?_⟩
    rw [List.map_cons, List.map_nil, List.mem_singleton] at hl
    rwa [heq, hl] at hk

theorem nodup_putAll {more : Entries α} (h : (keys entries).Nodup) :
    (keys (putAll more entries)).Nodup := by
  induction more generalizing entries with
  | nil => exact h
  | cons e more ih => exact ih (nodup_put h)

/-- The keys of a map differ. -/
theorem nodup_ofPairs (pairs : List (Text × α)) : (keys (ofPairs pairs)).Nodup :=
  nodup_putAll List.nodup_nil

theorem mem_keys_of_ofPairs {pairs : List (Text × α)} (h : key ∈ keys (ofPairs pairs)) :
    key ∈ keys pairs := by
  obtain ⟨e, he, rfl⟩ := List.mem_map.1 h
  exact List.mem_map_of_mem ((mem_of_mem_putAll he).resolve_right List.not_mem_nil)

end Tender.Entries
