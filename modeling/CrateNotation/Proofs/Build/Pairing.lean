import CrateNotation.Proofs.Build.Faulty
import CrateNotation.Proofs.Build.Rearrangement
import Mathlib.Algebra.Group.Nat.Even
import Mathlib.Data.List.Induction

/-!
# Keys and values in turn

Behind the tag of a list keys and values take turns.  Every other element is in the place of a key,
and the value of the key stands behind it.  This module says, by the indices of the elements alone,
what a row of them is read as and what is found wrong with it.

A key is a keyword that has something behind it.  If every key is one, the row is read: each keyword
counts once, in the order in which keywords are first written, and has the value behind the place
where it is written last.  If not, the first key that is none is blamed.  What stands in the place of
a value is handed on as it is, be it a keyword or a list.

## Main Definitions

* `Fields.KeyAt` — a keyword is a key of a row
* `Fields.Unpaired` — something in the place of a key makes no pair
* `Fields.KeyFault` — what is found wrong with it
* `Fields.Reads` — what the fields of a row are

## Main Statements

* `Fields.ofElements_eq_ok_iff` — which rows are read
* `Fields.ofElements_eq_error_iff` — the first key that makes no pair is blamed
* `Fields.reads_of_ofElements` — the last value of a keyword counts
* `Fields.last_value_first_fault` — all of this together
-/

namespace CrateNotation

namespace Fields

variable {β : Type}

/-! ## Keys -/

/-- The keyword `name` is the key of pair `j` in a row. -/
def KeyAt (tree : β → Tree) (row : List β) (j : Nat) (name : String) : Prop :=
  ∃ key pos, row[2 * j]? = some key ∧ tree key = .leaf (.keyword name) pos

/-- `Unpaired tree row j key` says that `key` is in the place of the key of pair `j` and makes no
pair: it is no keyword, or nothing stands behind it. -/
structure Unpaired (tree : β → Tree) (row : List β) (j : Nat) (key : β) : Prop where
  at_key : row[2 * j]? = some key
  no_pair : (∀ name pos, tree key ≠ .leaf (.keyword name) pos) ∨ row[2 * j + 1]? = none

/-- It is the first one that makes no pair. -/
structure FirstUnpaired (tree : β → Tree) (row : List β) (j : Nat) (key : β) : Prop where
  unpaired : Unpaired tree row j key
  first : ∀ i < j, ∀ other, ¬Unpaired tree row i other

/-- `KeyFault t e` says that `e` is found where `t` is in the place of a key and makes no pair.
A hole can be neither described nor found anywhere. -/
inductive KeyFault : Tree → Fault → Prop where
  /-- A keyword makes no pair because the row ends with it. -/
  | no_value {name : String} {pos : Position} :
    KeyFault (.leaf (.keyword name) pos)
      (.expected s!"value after keyword :{name}" "end of list" pos)
  | no_keyword {t : Tree} {found : String} {pos : Position}
    (other : ∀ name pos, t ≠ .leaf (.keyword name) pos) (description : t.describe? = some found)
    (place : t.pos? = some pos) : KeyFault t (.expected "keyword" found pos)
  | hole : KeyFault .hole .hole

variable {tree : β → Tree} {row more : List β} {key value : β} {fields : Fields β}
  {name : String} {i j : Nat} {e e' : Fault}

/-- One thing at most is wrong with what makes no pair. -/
theorem KeyFault.unique {t : Tree} (h : KeyFault t e) (h' : KeyFault t e') : e = e' := by
  cases h with
  | no_value =>
    cases h' with
    | no_value => rfl
    | no_keyword other => exact absurd rfl (other _ _)
  | no_keyword other description place =>
    cases h' with
    | no_value => exact absurd rfl (other _ _)
    | no_keyword _ description' place' =>
      obtain rfl := Option.some.inj (description.symm.trans description')
      obtain rfl := Option.some.inj (place.symm.trans place')
      rfl
    | hole => cases description
  | hole =>
    cases h' with
    | no_keyword _ description => cases description
    | hole => rfl

/-- What is expected to be a keyword and is none is at fault. -/
theorem keyFault_of_expectKeyword {t : Tree} (h : t.expectKeyword = .error e) :
    (∀ name pos, t ≠ .leaf (.keyword name) pos) ∧ KeyFault t e := by
  have hother : ∀ name pos, t ≠ .leaf (.keyword name) pos := by
    rintro name pos rfl
    cases h
  refine ⟨hother, ?_⟩
  unfold Tree.expectKeyword at h
  split at h
  · cases h
  · obtain rfl := Except.error.inj h
    rcases t with ⟨l, pos⟩ | ⟨_ | ⟨t, ts⟩, pos⟩ | _
    · exact .no_keyword hother rfl rfl
    · exact .no_keyword hother rfl rfl
    · exact .no_keyword hother rfl rfl
    · exact .hole

/-- The first of two places is the first. -/
theorem FirstUnpaired.unique {other : β} (h : FirstUnpaired tree row i key)
    (h' : FirstUnpaired tree row j other) : key = other := by
  rcases Nat.lt_trichotomy i j with hlt | rfl | hlt
  · exact absurd h.unpaired (h'.first i hlt key)
  · exact Option.some.inj (h.unpaired.at_key.symm.trans h'.unpaired.at_key)
  · exact absurd h'.unpaired (h.first j hlt other)

/-! ## Rows that are read -/

/-- If a row is read, then every key in it makes a pair. -/
theorem not_unpaired_of_ofElements (h : ofElements tree row = .ok fields) (j : Nat) (key : β) :
    ¬Unpaired tree row j key := by
  rintro ⟨at_key, no_pair⟩
  induction row using ofElements.induct generalizing fields j with
  | case1 => cases at_key
  | case2 first => exact ofElements_singleton_ne_ok h
  | case3 first value more ih =>
    obtain ⟨name, pos, others, hkey, hmore, -⟩ := ofElements_cons_cons_eq_ok_iff.1 h
    cases j with
    | zero =>
      obtain rfl := Option.some.inj at_key
      rcases no_pair with hother | hend
      · exact hother name pos hkey
      · cases hend
    | succ j => exact ih hmore j at_key no_pair

/-- If a row is not read, then its first key that makes no pair is at fault. -/
theorem firstUnpaired_of_ofElements (h : ofElements tree row = .error e) :
    ∃ j key, FirstUnpaired tree row j key ∧ KeyFault (tree key) e := by
  have hfirst : ∀ {row : List β} {key : β}, Unpaired tree row 0 key →
      FirstUnpaired tree row 0 key := fun hkey => ⟨hkey, nofun⟩
  induction row using ofElements.induct with
  | case1 => cases h
  | case2 key =>
    rw [ofElements] at h
    rcases error_of_bind_eq_error h with hkey | ⟨⟨name, pos⟩, hkey, hrest⟩
    · obtain ⟨hother, hfault⟩ := keyFault_of_expectKeyword hkey
      exact ⟨0, key, hfirst ⟨rfl, .inl hother⟩, hfault⟩
    · obtain rfl := Except.error.inj hrest
      refine ⟨0, key, hfirst ⟨rfl, .inr rfl⟩, ?_⟩
      rw [Tree.eq_leaf_of_expectKeyword hkey]
      exact .no_value
  | case3 key value more ih =>
    rw [ofElements] at h
    rcases error_of_bind_eq_error h with hkey | ⟨⟨name, pos⟩, hkey, hrest⟩
    · obtain ⟨hother, hfault⟩ := keyFault_of_expectKeyword hkey
      exact ⟨0, key, hfirst ⟨rfl, .inl hother⟩, hfault⟩
    · rcases error_of_bind_eq_error hrest with hmore | ⟨others, -, hpure⟩
      · obtain ⟨j, found, ⟨⟨at_key, no_pair⟩, hbefore⟩, hfault⟩ := ih hmore
        refine ⟨j + 1, found, ⟨⟨at_key, no_pair⟩, ?_⟩, hfault⟩
        -- The pair in front is one, and those behind it are those of the others.
        rintro (_ | i) hi other ⟨other_at, other_none⟩
        · obtain rfl := Option.some.inj other_at
          rcases other_none with hother | hend
          · exact hother _ _ (Tree.eq_leaf_of_expectKeyword hkey)
          · cases hend
        · exact hbefore i (Nat.lt_of_succ_lt_succ hi) other ⟨other_at, other_none⟩
      · cases hpure

/-- A row is not read if a key in it makes no pair, and the first such key is blamed. -/
theorem ofElements_eq_error_iff :
    ofElements tree row = .error e ↔
      ∃ j key, FirstUnpaired tree row j key ∧ KeyFault (tree key) e := by
  constructor
  · exact firstUnpaired_of_ofElements
  · rintro ⟨j, key, hkey, hfault⟩
    cases hread : ofElements tree row with
    | ok fields => exact absurd hkey.unpaired (not_unpaired_of_ofElements hread j key)
    | error e' =>
      obtain ⟨j', key', hkey', hfault'⟩ := firstUnpaired_of_ofElements hread
      obtain rfl := hkey.unique hkey'
      rw [hfault.unique hfault']

/-- A row is read exactly if it consists of twos and there is a keyword in every place of a key. -/
theorem ofElements_eq_ok_iff :
    (∃ fields, ofElements tree row = .ok fields) ↔
      Even row.length ∧ ∀ j key, row[2 * j]? = some key →
        ∃ name pos, tree key = .leaf (.keyword name) pos := by
  constructor
  · rintro ⟨fields, hread⟩
    have hpaired := not_unpaired_of_ofElements hread
    refine ⟨?_, ?_⟩
    · -- The last element of an odd row would be a key with nothing behind it.
      rw [Nat.even_iff]
      by_contra hodd
      have hlast : 2 * (row.length / 2) < row.length := by omega
      refine hpaired (row.length / 2) _ ⟨List.getElem?_eq_getElem hlast, .inr ?_⟩
      exact List.getElem?_eq_none (by omega)
    · intro j key hkey
      by_contra hother
      refine hpaired j key ⟨hkey, .inl fun name pos hname => hother ⟨name, pos, hname⟩⟩
  · rintro ⟨heven, hkeys⟩
    cases hread : ofElements tree row with
    | ok fields => exact ⟨fields, rfl⟩
    | error e =>
      obtain ⟨j, key, ⟨⟨hkey, no_pair⟩, -⟩, -⟩ := firstUnpaired_of_ofElements hread
      rcases no_pair with hother | hend
      · obtain ⟨name, pos, hname⟩ := hkeys j key hkey
        exact absurd hname (hother name pos)
      · obtain ⟨hlt, -⟩ := List.getElem?_eq_some_iff.1 hkey
        rw [List.getElem?_eq_none_iff] at hend
        rw [Nat.even_iff] at heven
        omega

/-! ## What counts -/

/-- The pairs of a row are its keys, each with what stands behind it. -/
theorem getElem?_pairs_of_ofElements (h : ofElements tree row = .ok fields) :
    fields.pairs[j]? = some (name, value) ↔
      KeyAt tree row j name ∧ row[2 * j + 1]? = some value := by
  induction row using ofElements.induct generalizing fields j with
  | case1 =>
    obtain rfl := Except.ok.inj h
    simp [KeyAt]
  | case2 key => exact absurd h ofElements_singleton_ne_ok
  | case3 key value more ih =>
    obtain ⟨name, pos, others, hkey, hmore, rfl⟩ := ofElements_cons_cons_eq_ok_iff.1 h
    cases j with
    | zero => simp [KeyAt, hkey]
    | succ j => exact ih hmore

/-- The names of the keywords, in the order in which they are written. -/
def keys (fields : Fields β) : List String :=
  fields.pairs.map Prod.fst

theorem getElem?_keys (fields : Fields β) (j : Nat) :
    fields.keys[j]? = fields.pairs[j]?.map Prod.fst :=
  List.getElem?_map

/-- The keywords of a row are its keys. -/
theorem getElem?_keys_of_ofElements (h : ofElements tree row = .ok fields) :
    fields.keys[j]? = some name ↔ KeyAt tree row j name := by
  rw [getElem?_keys, Option.map_eq_some_iff]
  constructor
  · rintro ⟨⟨_, value⟩, hpair, rfl⟩
    exact ((getElem?_pairs_of_ofElements h).1 hpair).1
  · intro hkey
    obtain ⟨key, pos, hrow, -⟩ := id hkey
    cases hvalue : row[2 * j + 1]? with
    | none => exact absurd ⟨hrow, .inr hvalue⟩ (not_unpaired_of_ofElements h j key)
    | some value => exact ⟨(name, value), (getElem?_pairs_of_ofElements h).2 ⟨hkey, hvalue⟩, rfl⟩

/-- The value that is looked up is that of the last pair with its keyword. -/
theorem get?_eq_some_iff :
    fields.get? name = some value ↔ ∃ before after,
      fields.pairs = before ++ (name, value) :: after ∧ ∀ p ∈ after, p.1 ≠ name := by
  rw [get?, List.lookup_eq_some_iff]
  constructor
  · rintro ⟨after, before, hpairs, hafter⟩
    refine ⟨before.reverse, after.reverse, ?_, ?_⟩
    · rw [← List.reverse_reverse fields.pairs, hpairs]
      simp
    · intro p hp
      exact (bne_iff_ne.1 (hafter p (List.mem_reverse.1 hp))).symm
  · rintro ⟨before, after, hpairs, hafter⟩
    refine ⟨after.reverse, before.reverse, ?_, ?_⟩
    · rw [hpairs]
      simp
    · intro p hp
      exact bne_iff_ne.2 (hafter p (List.mem_reverse.1 hp)).symm

/-- The value that counts stands behind the place where the keyword is written last. -/
theorem get?_eq_some_iff_of_ofElements (h : ofElements tree row = .ok fields) :
    fields.get? name = some value ↔
      ∃ j, KeyAt tree row j name ∧ row[2 * j + 1]? = some value ∧
        ∀ i, j < i → ¬KeyAt tree row i name := by
  rw [get?_eq_some_iff]
  constructor
  · rintro ⟨before, after, hpairs, hafter⟩
    have hpair : fields.pairs[before.length]? = some (name, value) := by
      rw [hpairs, List.getElem?_append_right le_rfl, Nat.sub_self, List.getElem?_cons_zero]
    obtain ⟨hkey, hvalue⟩ := (getElem?_pairs_of_ofElements h).1 hpair
    refine ⟨before.length, hkey, hvalue, ?_⟩
    intro i hi hagain
    rw [← getElem?_keys_of_ofElements h, getElem?_keys, Option.map_eq_some_iff] at hagain
    obtain ⟨p, hp, hname⟩ := hagain
    obtain ⟨k, rfl⟩ := Nat.exists_eq_add_of_lt hi
    rw [hpairs, List.getElem?_append_right (by omega), Nat.add_assoc, Nat.add_sub_cancel_left,
      List.getElem?_cons_succ] at hp
    exact hafter p (List.mem_of_getElem? hp) hname
  · rintro ⟨j, hkey, hvalue, hlast⟩
    have hpair := (getElem?_pairs_of_ofElements h).2 ⟨hkey, hvalue⟩
    obtain ⟨hj, hget⟩ := List.getElem?_eq_some_iff.1 hpair
    refine ⟨fields.pairs.take j, fields.pairs.drop (j + 1), ?_, ?_⟩
    · rw [← hget, ← List.drop_eq_getElem_cons hj, List.take_append_drop]
    · intro p hp hname
      obtain ⟨k, hk⟩ := List.getElem?_of_mem hp
      rw [List.getElem?_drop] at hk
      refine hlast (j + 1 + k) (by omega) ((getElem?_keys_of_ofElements h).1 ?_)
      rw [getElem?_keys, hk, ← hname]
      rfl

/-- Each element is kept once, and what is met first is kept first. -/
theorem pairwise_eraseDups {α : Type} [BEq α] [LawfulBEq α] (l : List α) :
    l.eraseDups.Pairwise fun a b => ∃ i : Nat, l[i]? = some a ∧ ∀ j ≤ i, l[j]? ≠ some b := by
  induction l using List.reverseRecOn with
  | nil => exact .nil
  | append_singleton l c ih =>
    have hkept : (l.eraseDups).Pairwise fun a b =>
        ∃ i : Nat, (l ++ [c])[i]? = some a ∧ ∀ j ≤ i, (l ++ [c])[j]? ≠ some b := by
      refine ih.imp ?_
      rintro a b ⟨i, hi, hfirst⟩
      obtain ⟨hlt, -⟩ := List.getElem?_eq_some_iff.1 hi
      refine ⟨i, by rw [List.getElem?_append_left hlt, hi], fun j hj => ?_⟩
      rw [List.getElem?_append_left (by omega)]
      exact hfirst j hj
    rw [List.eraseDups_append]
    by_cases hc : c ∈ l
    · have hnone : [c].removeAll l = [] := by simp [List.removeAll, hc]
      rw [hnone, List.eraseDups_nil, List.append_nil]
      exact hkept
    · -- A new element comes behind all others, and each of these is met before it.
      have hnew : [c].removeAll l = [c] := by simp [List.removeAll, hc]
      rw [hnew, List.eraseDups_cons, List.filter_nil, List.eraseDups_nil, List.pairwise_append]
      refine ⟨hkept, List.pairwise_singleton _ c, ?_⟩
      intro a ha b hb
      obtain rfl := List.mem_singleton.1 hb
      obtain ⟨i, hi⟩ := List.getElem?_of_mem (List.mem_eraseDups.1 ha)
      obtain ⟨hlt, -⟩ := List.getElem?_eq_some_iff.1 hi
      refine ⟨i, by rw [List.getElem?_append_left hlt, hi], fun j hj hagain => ?_⟩
      rw [List.getElem?_append_left (by omega)] at hagain
      exact hc (List.mem_of_getElem? hagain)

/-! ## Fields as a whole -/

/-- `Reads tree row fields` says that the fields are what a row is read as: every keyword among its
keys, once and in the order of first writing, with the value behind the place where it is written
last. -/
structure Reads (tree : β → Tree) (row : List β) (fields : Fields β) : Prop where
  mem_names : ∀ name, name ∈ fields.names ↔ ∃ j, KeyAt tree row j name
  nodup_names : fields.names.Nodup
  /-- The first of two names is written where the second has not been written yet. -/
  names_in_order : fields.names.Pairwise fun a b =>
    ∃ i, KeyAt tree row i a ∧ ∀ j ≤ i, ¬KeyAt tree row j b
  get?_eq_some : ∀ name value, fields.get? name = some value ↔
    ∃ j, KeyAt tree row j name ∧ row[2 * j + 1]? = some value ∧ ∀ i, j < i → ¬KeyAt tree row i name
  map_fst_entries : fields.entries.map Prod.fst = fields.names
  mem_entries : ∀ name value, (name, value) ∈ fields.entries ↔ fields.get? name = some value

/-- Some value counts for a keyword that is one of the names, and for no other. -/
theorem mem_names_iff : name ∈ fields.names ↔ ∃ value, fields.get? name = some value := by
  rw [names, List.mem_eraseDups, List.mem_map]
  constructor
  · rintro ⟨pair, hpair, rfl⟩
    exact Option.isSome_iff_exists.1 (isSome_get?_of_mem hpair)
  · rintro ⟨value, hvalue⟩
    obtain ⟨before, after, hpairs, -⟩ := get?_eq_some_iff.1 hvalue
    exact ⟨(name, value), hpairs ▸ List.mem_append_right before List.mem_cons_self, rfl⟩

theorem mem_entries_iff : (name, value) ∈ fields.entries ↔ fields.get? name = some value := by
  rw [entries, List.mem_filterMap]
  constructor
  · rintro ⟨name', -, h⟩
    obtain ⟨value', hvalue, h⟩ := Option.map_eq_some_iff.1 h
    cases h
    exact hvalue
  · intro h
    exact ⟨name, mem_names_iff.2 ⟨value, h⟩, by rw [h]; rfl⟩

theorem map_fst_entries (fields : Fields β) : fields.entries.map Prod.fst = fields.names := by
  have hname : ∀ name ∈ fields.names,
      ((fields.get? name).map (name, ·)).map Prod.fst = some name := by
    intro name hname
    obtain ⟨value, hvalue⟩ := mem_names_iff.1 hname
    rw [hvalue]
    rfl
  rw [entries, List.map_filterMap, List.filterMap_congr hname]
  exact List.filterMap_some

/-- What a row is read as. -/
theorem reads_of_ofElements (h : ofElements tree row = .ok fields) : fields.Reads tree row := by
  have horder : fields.names.Pairwise fun a b =>
      ∃ i, KeyAt tree row i a ∧ ∀ j ≤ i, ¬KeyAt tree row j b := by
    refine (pairwise_eraseDups fields.keys).imp ?_
    rintro a b ⟨i, hi, hfirst⟩
    refine ⟨i, (getElem?_keys_of_ofElements h).1 hi, fun j hj hkey => hfirst j hj ?_⟩
    exact (getElem?_keys_of_ofElements h).2 hkey
  refine ⟨fun name => ?_, ?_, horder, fun _ _ => get?_eq_some_iff_of_ofElements h,
    map_fst_entries fields, fun _ _ => mem_entries_iff⟩
  · rw [names, List.mem_eraseDups, List.mem_iff_getElem?]
    exact exists_congr fun _ => getElem?_keys_of_ofElements h
  · refine horder.imp ?_
    rintro a _ ⟨i, hi, hfirst⟩ rfl
    exact hfirst i le_rfl hi

/-- A value is handed on and not looked at. -/
theorem keys_ofElements_cons_cons (tree : β → Tree) (key value : β) (more : List β) :
    keys <$> ofElements tree (key :: value :: more) =
      (tree key).expectKeyword >>= fun found =>
        (found.1 :: ·) <$> (keys <$> ofElements tree more) := by
  rw [ofElements]
  cases (tree key).expectKeyword with
  | error e => rfl
  | ok found => cases ofElements tree more <;> rfl

/-- Rows with the same keys are read alike, whatever the values are. -/
theorem keys_ofElements_congr {other : List β} (hlength : other.length = row.length)
    (hkeys : ∀ j : Nat, other[2 * j]?.map tree = row[2 * j]?.map tree) :
    keys <$> ofElements tree other = keys <$> ofElements tree row := by
  induction row using ofElements.induct generalizing other with
  | case1 =>
    obtain rfl := List.eq_nil_of_length_eq_zero hlength
    rfl
  | case2 key =>
    obtain ⟨key', rfl⟩ := List.length_eq_one_iff.1 hlength
    have hkey : tree key' = tree key := Option.some.inj (hkeys 0)
    rw [ofElements, ofElements, hkey]
  | case3 key value more ih =>
    rcases other with _ | ⟨key', _ | ⟨value', others⟩⟩
    · cases hlength
    · cases hlength
    · have hkey : tree key' = tree key := Option.some.inj (hkeys 0)
      have hothers : keys <$> ofElements tree others = keys <$> ofElements tree more :=
        ih (Nat.succ.inj (Nat.succ.inj hlength)) fun j => hkeys (j + 1)
      rw [keys_ofElements_cons_cons, keys_ofElements_cons_cons, hkey, hothers]

/-- A row of keys and values is read exactly if it consists of twos and there is a keyword in every
place of a key.  Then each keyword counts once, in the order of first writing, and its value is the one
behind the place where it is written last.  If the row is not read, then the first key is blamed that
makes no pair, for not being a keyword, or else for having nothing behind it.  The values play no part
in this: rows with the same keys are read alike. -/
theorem last_value_first_fault (tree : β → Tree) (row : List β) :
    ((∃ fields, ofElements tree row = .ok fields) ↔
      Even row.length ∧ ∀ j key, row[2 * j]? = some key →
        ∃ name pos, tree key = .leaf (.keyword name) pos) ∧
    (∀ fields, ofElements tree row = .ok fields → fields.Reads tree row) ∧
    (∀ e, ofElements tree row = .error e ↔
      ∃ j key, FirstUnpaired tree row j key ∧ KeyFault (tree key) e) ∧
    ∀ other : List β, other.length = row.length →
      (∀ j : Nat, other[2 * j]?.map tree = row[2 * j]?.map tree) →
      keys <$> ofElements tree other = keys <$> ofElements tree row :=
  ⟨ofElements_eq_ok_iff, fun _ => reads_of_ofElements, fun _ => ofElements_eq_error_iff,
    fun _ => keys_ofElements_congr⟩

/-- A keyword is written twice around another one, which has a keyword as its value.  In the second row
a string in the place of a key is found before the keyword that nothing stands behind. -/
theorem last_value_first_fault_twice :
    let a := Tree.leaf (.keyword "a")
    let b := Tree.leaf (.keyword "b")
    let row := [a ⟨3, 1, 4⟩, .leaf (.number "1") ⟨6, 1, 7⟩, b ⟨8, 1, 9⟩, b ⟨11, 1, 12⟩,
      a ⟨14, 1, 15⟩, .list [] ⟨17, 1, 18⟩]
    let broken := [a ⟨3, 1, 4⟩, b ⟨6, 1, 7⟩, .leaf (.string "x") ⟨9, 1, 10⟩, b ⟨13, 1, 14⟩,
      a ⟨16, 1, 17⟩]
    (∃ fields, ofElements id row = .ok fields ∧ fields.Reads id row ∧
      fields.entries = [("a", .list [] ⟨17, 1, 18⟩), ("b", b ⟨11, 1, 12⟩)]) ∧
    ofElements id broken = .error (.expected "keyword" "string 'x'" ⟨9, 1, 10⟩) := by
  intro a b row broken
  refine ⟨⟨_, rfl, (last_value_first_fault id row).2.1 _ rfl, by decide⟩, ?_⟩
  refine ((last_value_first_fault id broken).2.2.1 _).2
    ⟨1, .leaf (.string "x") ⟨9, 1, 10⟩, ⟨⟨rfl, .inl nofun⟩, ?_⟩, .no_keyword nofun (by decide) rfl⟩
  rintro i hi other ⟨at_key, no_pair⟩
  obtain rfl : i = 0 := by omega
  obtain rfl := Option.some.inj at_key
  rcases no_pair with hother | hend
  · exact hother _ _ rfl
  · cases hend

end Fields

end CrateNotation
