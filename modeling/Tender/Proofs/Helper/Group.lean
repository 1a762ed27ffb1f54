/-
The groups of a list.

* `Text.eraseDups_concat` — a key behind others is added where it is new;
* `Entries.put_row` — what is put under a key of a row of entries replaces its value only;
* `Group.groups_eq` — the groups of a list: one for each key in the order of first appearance, with
  the items of that key in their order;
* `Group.groups_partition` — so each item is in one group, and a group is not parted again.
-/
import Mathlib.Data.List.Nodup
import Mathlib.Data.List.Perm.Basic
import Tender.Helper.Group
import Tender.Proofs.PageBreak.Split
import Tender.Proofs.Value.Entries

namespace Tender

/-! ### Keys in the order of first appearance -/

namespace Text

theorem eraseDups_concat (keys : List Text) (key : Text) :
    (keys ++ [key]).eraseDups = keys.eraseDups ++ if key ∈ keys then [] else [key] := by
  rw [List.eraseDups_append]
  congr 1
  by_cases h : key ∈ keys
  · rw [if_pos h]
    simp [List.removeAll, h]
  · rw [if_neg h]
    simp [List.removeAll, h, List.eraseDups_cons]

theorem nodup_eraseDups (keys : List Text) : keys.eraseDups.Nodup := by
  induction keys using List.reverseRecOn with
  | nil => exact List.nodup_nil
  | append_singleton keys key ih =>
    rw [eraseDups_concat]
    split
    · rwa [List.append_nil]
    · rename_i hnew
      refine List.nodup_append.2 ⟨ih, List.nodup_singleton key, ?_⟩
      rintro k hk _ hkey rfl
      rw [List.mem_singleton.1 hkey] at hk
      exact hnew (List.mem_eraseDups.1 hk)

end Text

/-! ### Rows of entries -/

namespace Entries

variable {α : Type} {keys : List Text} {key : Text}

/-- The entries of a row of keys. -/
def row (keys : List Text) (f : Text → α) : Entries α :=
  keys.map fun k => (k, f k)

theorem keys_row (keys : List Text) (f : Text → α) : Entries.keys (row keys f) = keys := by
  rw [Entries.keys, row, List.map_map]
  exact List.map_id keys

theorem get?_row (f : Text → α) :
    get? key (row keys f) = if key ∈ keys then some (f key) else none := by
  induction keys with
  | nil => rfl
  | cons k keys ih =>
    show (if k = key then some (f k) else get? key (row keys f)) = _
    rw [ih]
    by_cases hk : k = key
    · rw [if_pos hk, if_pos (hk ▸ List.mem_cons_self), hk]
    · rw [if_neg hk]
      simp [Ne.symm hk]

/-- What is put under one of the keys replaces the value of that key only. -/
theorem put_row (h : keys.Nodup) (hkey : key ∈ keys) (f : Text → α) (value : α) :
    put key value (row keys f) = row keys fun k => if k = key then value else f k := by
  induction keys with
  | nil => cases hkey
  | cons k keys ih =>
    obtain ⟨hk, hkeys⟩ := List.nodup_cons.1 h
    show (if k = key then (k, value) :: row keys f else (k, f k) :: put key value (row keys f)) =
      (k, if k = key then value else f k) :: row keys _
    by_cases heq : k = key
    · subst heq
      rw [if_pos rfl, if_pos rfl]
      refine congrArg _ (List.map_congr_left fun k' hk' => ?_)
      have hne : k' ≠ k := fun h => hk (h ▸ hk')
      exact congrArg (Prod.mk k') (if_neg hne).symm
    · rw [if_neg heq, if_neg heq, ih hkeys ((List.mem_cons.1 hkey).resolve_left (Ne.symm heq))]

end Entries

/-! ### Groups -/

namespace Group

variable {steps : List Text} {items : List Value}

/-- The key that an item groups under, by the property at a path. -/
def keyAt (steps : List Text) (item : Value) : Text :=
  key (lookup item steps)

/-- The items of a key, in their order. -/
def itemsAt (steps : List Text) (items : List Value) (k : Text) : List Value :=
  items.filter fun item => keyAt steps item = k

theorem itemsAt_concat (steps : List Text) (items : List Value) (item : Value) (k : Text) :
    itemsAt steps (items ++ [item]) k =
      itemsAt steps items k ++ if keyAt steps item = k then [item] else [] := by
  rw [itemsAt, List.filter_append]
  by_cases h : keyAt steps item = k
  · rw [if_pos h, List.filter_cons_of_pos (by simpa using h)]
    rfl
  · rw [if_neg h, List.filter_cons_of_neg (by simpa using h)]
    rfl

theorem itemsAt_eq_nil_iff {k : Text} :
    itemsAt steps items k = [] ↔ k ∉ items.map (keyAt steps) := by
  rw [itemsAt, List.filter_eq_nil_iff, List.mem_map]
  simp

/-- The groups of a list: one for each key, in the order of first appearance. -/
theorem groups_eq (steps : List Text) (items : List Value) :
    groups steps items =
      Entries.row (items.map (keyAt steps)).eraseDups (itemsAt steps items) := by
  -- the last item either joins the group of its key or starts one behind all others
  induction items using List.reverseRecOn with
  | nil => rfl
  | append_singleton items item ih =>
    have hstep : groups steps (items ++ [item]) =
        add (groups steps items) (keyAt steps item) item := by
      rw [groups, List.foldl_append]
      rfl
    rw [hstep, ih, add, List.map_append, List.map_singleton, Text.eraseDups_concat]
    by_cases hkey : keyAt steps item ∈ items.map (keyAt steps)
    · have hmem : keyAt steps item ∈ (items.map (keyAt steps)).eraseDups :=
        List.mem_eraseDups.2 hkey
      rw [if_pos hkey, List.append_nil, Entries.get?_row, if_pos hmem,
        Entries.put_row (Text.nodup_eraseDups _) hmem]
      refine List.map_congr_left fun k _ => congrArg (Prod.mk k) ?_
      show (if k = keyAt steps item then itemsAt steps items _ ++ [item] else itemsAt steps items k) =
        itemsAt steps (items ++ [item]) k
      rw [itemsAt_concat]
      by_cases hk : k = keyAt steps item
      · rw [if_pos hk, if_pos hk.symm, hk]
      · rw [if_neg hk, if_neg (Ne.symm hk), List.append_nil]
    · have hnew : keyAt steps item ∉ (items.map (keyAt steps)).eraseDups :=
        fun h => hkey (List.mem_eraseDups.1 h)
      rw [if_neg hkey, Entries.get?_row, if_neg hnew, Entries.put_of_not_mem
        (by rwa [Entries.keys_row]), Entries.row, Entries.row, List.map_append]
      congr 1
      · refine List.map_congr_left fun k hk => ?_
        have hne : keyAt steps item ≠ k := fun h => hnew (h ▸ hk)
        rw [itemsAt_concat, if_neg hne, List.append_nil]
      · show [(_, [item])] = [(_, itemsAt steps (items ++ [item]) _)]
        rw [itemsAt_concat, if_pos rfl, itemsAt_eq_nil_iff.2 hkey, List.nil_append]

theorem mem_groups_iff {k : Text} {vs : List Value} : (k, vs) ∈ groups steps items ↔
    k ∈ items.map (keyAt steps) ∧ vs = itemsAt steps items k := by
  rw [groups_eq, Entries.row, List.mem_map]
  constructor
  · rintro ⟨k', hk', heq⟩
    cases heq
    exact ⟨List.mem_eraseDups.1 hk', rfl⟩
  · rintro ⟨hk, rfl⟩
    exact ⟨k, List.mem_eraseDups.2 hk, rfl⟩

/-- Items that are taken key by key are all items. -/
theorem flatMap_itemsAt_perm {keys : List Text} (hkeys : keys.Nodup)
    (hall : ∀ item ∈ items, keyAt steps item ∈ keys) :
    (keys.flatMap (itemsAt steps items)).Perm items := by
  induction keys generalizing items with
  | nil =>
    cases items with
    | nil => exact .refl _
    | cons item items => cases hall item List.mem_cons_self
  | cons k keys ih =>
    obtain ⟨hk, hkeys⟩ := List.nodup_cons.1 hkeys
    -- the other keys find their items among those that the first key leaves
    have hothers : keys.flatMap (itemsAt steps items) =
        keys.flatMap (itemsAt steps (items.filter fun item => !decide (keyAt steps item = k))) := by
      refine List.flatMap_congr fun k' hk' => ?_
      rw [itemsAt, itemsAt, List.filter_filter]
      refine List.filter_congr fun item _ => ?_
      have hne : k' ≠ k := fun h => hk (h ▸ hk')
      by_cases h : keyAt steps item = k'
      · simp [h, hne]
      · simp [h]
    rw [List.flatMap_cons, hothers]
    refine ((ih hkeys fun item hitem => ?_).append_left _).trans (List.filter_append_perm _ items)
    obtain ⟨hmem, hne⟩ := List.mem_filter.1 hitem
    exact (List.mem_cons.1 (hall item hmem)).resolve_left (by simpa using hne)

/-- The items of one key make one group. -/
theorem groups_itemsAt {k : Text} (hk : k ∈ items.map (keyAt steps)) :
    groups steps (itemsAt steps items k) = [(k, itemsAt steps items k)] := by
  have hkeys : ∀ item ∈ itemsAt steps items k, keyAt steps item = k := fun item hitem => by
    simpa using (List.mem_filter.1 hitem).2
  have hsame : itemsAt steps (itemsAt steps items k) k = itemsAt steps items k :=
    List.filter_eq_self.2 fun item hitem => by simpa using hkeys item hitem
  obtain ⟨first, others, hrow⟩ := List.exists_cons_of_ne_nil
    (mt itemsAt_eq_nil_iff.1 (not_not_intro hk))
  have hnames : (itemsAt steps items k).map (keyAt steps) =
      List.replicate (itemsAt steps items k).length k :=
    List.eq_replicate_iff.2 ⟨List.length_map _, fun k' hk' => by
      obtain ⟨item, hitem, rfl⟩ := List.mem_map.1 hk'
      exact hkeys item hitem⟩
  have hone : ((itemsAt steps items k).map (keyAt steps)).eraseDups = [k] := by
    rw [hnames, hrow, List.length_cons, List.replicate_succ, List.eraseDups_cons]
    simp
  rw [groups_eq, hone]
  show [(k, itemsAt steps (itemsAt steps items k) k)] = _
  rw [hsame]

/-- Grouping parts a list: the keys are those of the items in the order of first appearance, each
group holds the items of its key in their order and is not empty, each item is in one group, and a
group that is grouped again is that one group. -/
theorem groups_partition (property : Text) (items : List Value) :
    format (.list items) (.text property) =
      .map ((groups (path property) items).map fun (k, vs) => (k, .list vs)) ∧
    Entries.keys (groups (path property) items) =
      (items.map (keyAt (path property))).eraseDups ∧
    (∀ k vs, (k, vs) ∈ groups (path property) items →
      vs = items.filter (fun item => keyAt (path property) item = k) ∧ vs ≠ [] ∧
        format (.list vs) (.text property) = .map [(k, .list vs)]) ∧
    ((groups (path property) items).flatMap Prod.snd).Perm items ∧
    ∀ item ∈ items, ∃! group, group ∈ groups (path property) items ∧ item ∈ group.2 := by
  refine ⟨rfl, by rw [groups_eq, Entries.keys_row], fun k vs h => ?_, ?_, fun item hitem => ?_⟩
  · obtain ⟨hk, rfl⟩ := mem_groups_iff.1 h
    refine ⟨rfl, fun hnil => itemsAt_eq_nil_iff.1 hnil hk, ?_⟩
    show Value.map ((groups (path property) _).map _) = _
    rw [groups_itemsAt hk]
    rfl
  · rw [groups_eq, Entries.row, List.flatMap_map]
    exact flatMap_itemsAt_perm (Text.nodup_eraseDups _)
      fun item hitem => List.mem_eraseDups.2 (List.mem_map_of_mem hitem)
  · refine ⟨(keyAt (path property) item, itemsAt (path property) items _),
      ⟨mem_groups_iff.2 ⟨List.mem_map_of_mem hitem, rfl⟩,
        List.mem_filter.2 ⟨hitem, decide_eq_true rfl⟩⟩, ?_⟩
    rintro ⟨k, vs⟩ ⟨hgroup, hin⟩
    obtain ⟨-, rfl⟩ := mem_groups_iff.1 hgroup
    have hkey : keyAt (path property) item = k := by simpa using (List.mem_filter.1 hin).2
    rw [hkey]

/-- An item with a value two steps in. -/
def rated (kind : Value) : Value := .map [(lit "rate", .map [(lit "kind", kind)])]

/-- A number and the text that spells it have one key, and what is not there has a key as well. -/
theorem groups_partition_rates :
    (lit "1", [rated (.int 1), rated (.text (lit "1"))]) ∈
      groups (path (lit "rate.kind")) [rated (.int 1), rated .null, rated (.text (lit "1"))] ∧
    format (.list [rated (.int 1), rated (.text (lit "1"))]) (.text (lit "rate.kind")) =
      .map [(lit "1", .list [rated (.int 1), rated (.text (lit "1"))])] ∧
    ∃! group, group ∈ groups (path (lit "rate.kind"))
      [rated (.int 1), rated .null, rated (.text (lit "1"))] ∧ rated .null ∈ group.2 := by
  have hpath : path (lit "rate.kind") = [lit "rate", lit "kind"] := by
    rw [path, Text.splitOn_of_some _ (a := lit "rate") (b := lit "kind") (by decide +kernel),
      Text.splitOn_of_none _ (by decide +kernel)]
  have hkey (v : Value) : keyAt [lit "rate", lit "kind"] (rated v) = key v := by
    cases v <;> simp [keyAt, rated, lookup, Entries.get?, Value.isNull]
  have hone : key (.int 1) = lit "1" := by decide +kernel
  have hgroup : (lit "1", [rated (.int 1), rated (.text (lit "1"))]) ∈
      groups (path (lit "rate.kind")) [rated (.int 1), rated .null, rated (.text (lit "1"))] := by
    rw [hpath, mem_groups_iff]
    have htext : key (.text (lit "1")) = lit "1" := rfl
    have hnull : key .null = lit "undefined" := rfl
    simp [itemsAt, hkey, hone, htext, hnull, lit_inj]
  have h := groups_partition (lit "rate.kind")
    [rated (.int 1), rated .null, rated (.text (lit "1"))]
  exact ⟨hgroup, (h.2.2.1 _ _ hgroup).2.2,
    h.2.2.2.2 _ (List.mem_cons_of_mem _ List.mem_cons_self)⟩

end Group
end Tender
