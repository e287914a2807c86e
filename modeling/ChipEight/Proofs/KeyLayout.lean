import ChipEight.KeyLayout
import Mathlib.Data.List.DropRight
import Mathlib.Data.List.Nodup
import Mathlib.Data.List.Perm.Subperm
import Mathlib.Data.List.Sort

/-! # Layouts are bijections

Pairs of a name and a key make a table in which a name occurs once, with the key of its last pair
(`lookup_collect`). A layout is accepted if the keys of this table are the keys 0 to 15 in some
order (`ofPairs_eq_ok_iff`), and then each of them has one name (`Bijective`). Sixteen names make a
layout unless stripping makes two of them the same (`ofNames_eq_ok_iff`).
-/

namespace ChipEight

namespace Text

theorem stripChars_eq (cs : List Char) :
    stripChars cs = (cs.dropWhile isBlank).rdropWhile isBlank := rfl

theorem stripChars_idem (cs : List Char) : stripChars (stripChars cs) = stripChars cs := by
  -- what is left begins as it did before its end was taken off, so there is nothing more to drop in
  -- front
  have hfront : (stripChars cs).dropWhile isBlank = stripChars cs := by
    refine List.dropWhile_eq_self_iff.2 fun hlen hblank => ?_
    have hp : stripChars cs <+: cs.dropWhile isBlank := List.rdropWhile_prefix _ _
    rw [hp.getElem hlen] at hblank
    exact List.dropWhile_get_zero_not isBlank cs (Nat.lt_of_lt_of_le hlen hp.length_le) hblank
  rw [stripChars_eq (stripChars cs), hfront, stripChars_eq, List.rdropWhile_idempotent]

theorem strip_strip (s : String) : strip (strip s) = strip s := by
  rw [strip, strip, String.toList_ofList, stripChars_idem]

end Text

namespace KeyLayout

/-- The keys, in order. -/
def keys : List Int := (List.range 16).map fun k : Nat => (k : Int)

theorem nodup_keys : keys.Nodup := by decide

/-- Each key is what one name stands for, and no name stands for anything else. -/
structure Bijective (l : KeyLayout) : Prop where
  named : ∀ key ∈ keys, ∃! name, l.lookup name = some key
  keyed : ∀ name key, l.lookup name = some key → key ∈ keys

/-! ### Tables -/

section
variable {entries pairs : List (String × Int)} {name n : String} {key : Int}

theorem lookup_cons_eq (e : String × Int) (entries : List (String × Int)) (n : String) :
    (e :: entries).lookup n = if n = e.1 then some e.2 else entries.lookup n := by
  by_cases h : n = e.1
  · rw [if_pos h, List.lookup_cons, beq_iff_eq.2 h]
  · rw [if_neg h, List.lookup_cons, beq_eq_false_iff_ne.2 h]

theorem lookup_put :
    (put name key entries).lookup n = if n = name then some key else entries.lookup n := by
  induction entries with
  | nil => exact lookup_cons_eq (name, key) [] n
  | cons e entries ih =>
    rw [put]
    split
    next h =>
      simp only [lookup_cons_eq, h]
      split <;> rfl
    next h =>
      simp only [lookup_cons_eq, ih]
      by_cases hn : n = name
      · rw [if_pos hn, if_neg (hn ▸ Ne.symm h), if_pos hn]
      · rw [if_neg hn, if_neg hn]

theorem map_fst_put :
    (put name key entries).map Prod.fst =
      if name ∈ entries.map Prod.fst then entries.map Prod.fst
      else entries.map Prod.fst ++ [name] := by
  induction entries with
  | nil => rfl
  | cons e entries ih =>
    rw [put]
    split
    next h => simp [h]
    next h =>
      have hmem : name ∈ (e :: entries).map Prod.fst ↔ name ∈ entries.map Prod.fst := by
        rw [List.map_cons, List.mem_cons, or_iff_right (Ne.symm h)]
      rw [List.map_cons, ih, if_congr hmem rfl rfl, List.map_cons]
      split <;> rfl

theorem nodup_put (h : (entries.map Prod.fst).Nodup) :
    ((put name key entries).map Prod.fst).Nodup := by
  rw [map_fst_put]
  split
  · exact h
  next hnew => exact List.concat_eq_append ▸ h.concat hnew

/-- Entries under names of their own are found by their names. -/
theorem lookup_eq_some_iff (h : (entries.map Prod.fst).Nodup) :
    entries.lookup n = some key ↔ (n, key) ∈ entries := by
  induction entries with
  | nil => simp
  | cons e entries ih =>
    rw [List.map_cons, List.nodup_cons] at h
    rw [lookup_cons_eq, List.mem_cons, Prod.ext_iff]
    split
    next hn =>
      have hfresh : (n, key) ∉ entries := fun hmem => h.1 (hn ▸ List.mem_map_of_mem hmem)
      rw [Option.some_inj, or_iff_left hfresh, and_iff_right hn, eq_comm]
    next hn => rw [ih h.2, or_iff_right fun he => hn he.1]

theorem collect_append (pairs : List (String × Int)) (p : String × Int) :
    collect (pairs ++ [p]) = put p.1 p.2 (collect pairs) := by
  rw [collect, List.foldl_append]
  rfl

/-- The last pair of a name counts. -/
theorem lookup_collect (pairs : List (String × Int)) (n : String) :
    (collect pairs).lookup n = pairs.reverse.lookup n := by
  induction pairs using List.reverseRecOn with
  | nil => rfl
  | append_singleton pairs p ih =>
    rw [collect_append, lookup_put, ih, List.reverse_append, List.reverse_singleton,
      List.singleton_append, lookup_cons_eq]

theorem nodup_collect (pairs : List (String × Int)) : ((collect pairs).map Prod.fst).Nodup := by
  induction pairs using List.reverseRecOn with
  | nil => exact List.nodup_nil
  | append_singleton pairs p ih => rw [collect_append]; exact nodup_put ih

theorem mem_map_fst_collect : n ∈ (collect pairs).map Prod.fst ↔ n ∈ pairs.map Prod.fst := by
  induction pairs using List.reverseRecOn with
  | nil => rfl
  | append_singleton pairs p ih =>
    rw [collect_append, map_fst_put, List.map_append, List.mem_append, ← ih]
    split
    next hold => exact ⟨.inl, fun h => h.elim id fun h => List.mem_singleton.1 h ▸ hold⟩
    next => exact List.mem_append

/-- Under a name of its own a pair is put at the end. -/
theorem put_of_notMem (h : name ∉ entries.map Prod.fst) :
    put name key entries = entries ++ [(name, key)] := by
  induction entries with
  | nil => rfl
  | cons e entries ih =>
    rw [List.map_cons, List.mem_cons, not_or] at h
    rw [put, if_neg (Ne.symm h.1), ih h.2, List.cons_append]

theorem collect_of_nodup (h : (pairs.map Prod.fst).Nodup) : collect pairs = pairs := by
  induction pairs using List.reverseRecOn with
  | nil => rfl
  | append_singleton pairs p ih =>
    rw [List.map_append, List.map_singleton, List.nodup_append] at h
    have hnew : p.1 ∉ (collect pairs).map Prod.fst := fun hmem =>
      h.2.2 _ (mem_map_fst_collect.1 hmem) _ (List.mem_singleton_self _) rfl
    rw [collect_append, put_of_notMem hnew, ih h.1]

/-- No pair is lost exactly if no name occurs twice. -/
theorem length_collect_eq_iff :
    (collect pairs).length = pairs.length ↔ (pairs.map Prod.fst).Nodup := by
  constructor
  · intro hlen
    have hsub : (collect pairs).map Prod.fst ⊆ pairs.map Prod.fst := fun _ => mem_map_fst_collect.1
    have hle : (pairs.map Prod.fst).length ≤ ((collect pairs).map Prod.fst).length := by
      rw [List.length_map, List.length_map, hlen]
    have hperm := ((nodup_collect pairs).subperm hsub).perm_of_length_le hle
    exact hperm.nodup_iff.1 (nodup_collect pairs)
  · intro hnodup
    rw [collect_of_nodup hnodup]

/-- The keys of a table, sorted, are 0 to 15 if they are these in some order. -/
theorem covers_iff : covers entries = true ↔ (entries.map Prod.snd).Perm keys := by
  have hsorted : keys.Pairwise (· ≤ ·) := by decide
  have hperm := List.mergeSort_perm (entries.map Prod.snd) (· ≤ ·)
  rw [covers, beq_iff_eq]
  constructor
  · intro heq
    rw [heq] at hperm
    exact hperm.symm
  · intro hkeys
    exact (hperm.trans hkeys).eq_of_pairwise' (List.pairwise_mergeSort' (· ≤ ·) _) hsorted

end

/-! ### Layouts -/

section
variable {pairs : List (String × Int)} {names : List String} {l : KeyLayout}

theorem ofPairs_eq_ok_iff :
    ofPairs pairs = .ok l ↔ l = ⟨collect pairs⟩ ∧ ((collect pairs).map Prod.snd).Perm keys := by
  have hlen (h : ((collect pairs).map Prod.snd).Perm keys) : (collect pairs).length = 16 := by
    rw [← List.length_map Prod.snd, h.length_eq]
    rfl
  simp only [ofPairs]
  by_cases hsize : (collect pairs).length = 16
  · rw [if_neg (not_not_intro hsize), ← covers_iff]
    cases covers (collect pairs) <;> simp [eq_comm]
  · rw [if_pos hsize]
    exact ⟨nofun, fun h => absurd (hlen h.2) hsize⟩

/-- A layout that was accepted has a name for each key. -/
theorem bijective_of_ofPairs (h : ofPairs pairs = .ok l) : l.Bijective := by
  obtain ⟨rfl, hperm⟩ := ofPairs_eq_ok_iff.1 h
  have hnames := nodup_collect pairs
  have hlookup {name : String} {key : Int} :
      lookup ⟨collect pairs⟩ name = some key ↔ (name, key) ∈ collect pairs :=
    lookup_eq_some_iff hnames
  refine ⟨fun key hkey => ?_, fun name key hname => ?_⟩
  · obtain ⟨⟨name, _⟩, hmem, rfl⟩ := List.mem_map.1 (hperm.mem_iff.2 hkey)
    refine ⟨name, hlookup.2 hmem, fun name' hname' => ?_⟩
    -- two entries with one key would be the same entry, since no key occurs twice
    have hinj := List.inj_on_of_nodup_map (hperm.nodup_iff.2 nodup_keys) (hlookup.1 hname') hmem rfl
    exact congrArg Prod.fst hinj
  · exact hperm.mem_iff.1 (List.mem_map.2 ⟨_, hlookup.1 hname, rfl⟩)

/-- The table of sixteen names, each stripped. -/
def numbered (names : List String) : List (String × Int) :=
  names.zipIdx.map fun p => (Text.strip p.1, (p.2 : Int))

theorem map_fst_numbered (names : List String) :
    (numbered names).map Prod.fst = names.map Text.strip := by
  have hfst : names.map Text.strip = (names.zipIdx.map Prod.fst).map Text.strip := by
    rw [List.zipIdx_map_fst]
  rw [numbered, List.map_map, hfst, List.map_map]
  rfl

theorem map_snd_numbered (h : names.length = 16) : (numbered names).map Prod.snd = keys := by
  rw [numbered, List.map_map, keys, List.range_eq_range', ← h, ← List.zipIdx_map_snd 0 names,
    List.map_map]
  rfl

theorem mem_numbered {n : String} {key : Int} :
    (n, key) ∈ numbered names ↔ ∃ k : Nat, key = k ∧ (names.map Text.strip)[k]? = some n := by
  simp only [numbered, List.mem_map, List.getElem?_map, Option.map_eq_some_iff, Prod.exists,
    List.mem_zipIdx_iff_getElem?, Prod.mk.injEq]
  constructor
  · rintro ⟨name, k, hname, hstrip, rfl⟩
    exact ⟨k, rfl, name, hname, hstrip⟩
  · rintro ⟨k, rfl, name, hname, hstrip⟩
    exact ⟨name, k, hname, hstrip, rfl⟩

theorem numbered_map_strip (names : List String) :
    numbered (names.map Text.strip) = numbered names := by
  simp only [numbered, List.zipIdx_map, List.map_map, Function.comp_def, Prod.map, id,
    Text.strip_strip]

theorem ofNames_eq (names : List String) :
    ofNames names = if names.length ≠ 16 then .error (.names names.length)
      else ofPairs (numbered names) := rfl

theorem ofNames_eq_ok_iff :
    ofNames names = .ok l ↔
      l = ⟨numbered names⟩ ∧ names.length = 16 ∧ (names.map Text.strip).Nodup := by
  rw [ofNames_eq]
  by_cases hlen : names.length = 16
  · rw [if_neg (not_not_intro hlen), ofPairs_eq_ok_iff, ← map_fst_numbered, and_iff_right hlen]
    have hsize : (numbered names).length = 16 := by
      rw [numbered, List.length_map, List.length_zipIdx, hlen]
    constructor
    · rintro ⟨rfl, hperm⟩
      have hnodup := length_collect_eq_iff.1
        ((List.length_map Prod.snd ▸ hperm.length_eq).trans hsize.symm)
      rw [collect_of_nodup hnodup]
      exact ⟨rfl, hnodup⟩
    · rintro ⟨rfl, hnodup⟩
      rw [collect_of_nodup hnodup, map_snd_numbered hlen]
      exact ⟨rfl, .refl _⟩
  · rw [if_pos hlen]
    exact ⟨nofun, fun h => absurd h.2.1 hlen⟩

/-- Pairs are read as a table in which a name has the key of its last pair. The table is a layout if
it has sixteen entries whose keys are 0 to 15 in some order, and the layout is then a bijection.
Names are read as a layout if there are sixteen of them, all different once they are stripped, and
it makes no difference whether they were stripped before. -/
theorem accepted_iff_bijection (pairs : List (String × Int)) (names : List String) :
    (((collect pairs).map Prod.fst).Nodup ∧
      (∀ n, (collect pairs).lookup n = pairs.reverse.lookup n) ∧
      ((pairs.map Prod.fst).Nodup → collect pairs = pairs)) ∧
    ((∃ l, ofPairs pairs = .ok l) ↔ (collect pairs).length = 16 ∧
      ((collect pairs).map Prod.snd).Perm keys) ∧
    (∀ l, ofPairs pairs = .ok l → l.Bijective ∧ ∀ n, l.lookup n = (collect pairs).lookup n) ∧
    ((∃ l, ofNames names = .ok l) ↔ names.length = 16 ∧ (names.map Text.strip).Nodup) ∧
    (∀ l, ofNames names = .ok l → l.Bijective ∧
      ∀ n key, l.lookup n = some key ↔ ∃ k : Nat, key = k ∧ (names.map Text.strip)[k]? = some n) ∧
    ofNames (names.map Text.strip) = ofNames names := by
  refine ⟨⟨nodup_collect pairs, lookup_collect pairs, collect_of_nodup⟩, ?_, fun l hl => ?_, ?_,
    fun l hl => ?_, ?_⟩
  · constructor
    · rintro ⟨l, hl⟩
      have hperm := (ofPairs_eq_ok_iff.1 hl).2
      exact ⟨List.length_map Prod.snd ▸ hperm.length_eq, hperm⟩
    · rintro ⟨-, hperm⟩
      exact ⟨_, ofPairs_eq_ok_iff.2 ⟨rfl, hperm⟩⟩
  · refine ⟨bijective_of_ofPairs hl, fun n => ?_⟩
    rw [(ofPairs_eq_ok_iff.1 hl).1]
    rfl
  · constructor
    · rintro ⟨l, hl⟩
      exact (ofNames_eq_ok_iff.1 hl).2
    · intro hnames
      exact ⟨_, ofNames_eq_ok_iff.2 ⟨rfl, hnames⟩⟩
  · obtain ⟨rfl, hlen, hnodup⟩ := ofNames_eq_ok_iff.1 hl
    have hread : ofPairs (numbered names) = .ok ⟨numbered names⟩ := by
      rwa [ofNames_eq, if_neg (not_not_intro hlen)] at hl
    refine ⟨bijective_of_ofPairs hread, fun n key => ?_⟩
    rw [← map_fst_numbered] at hnodup
    exact (lookup_eq_some_iff hnodup).trans mem_numbered
  · rw [ofNames_eq, ofNames_eq, numbered_map_strip, List.length_map]

/-- Blanks around names do not matter, unless two names differ in nothing else. Of the pairs the
last two exchange the keys of two names. -/
theorem accepted_iff_bijection_of_blanks :
    let names := [" x", "1\u2003", "2", "3", "q", "w", "e", "a", "s", "d", "z", "c", "4", "r",
      "f", "\tv\n"]
    let alike := ["x", "1", "2", "3", "q", "w", "e", "a", "s", "d", "z", "c", "4", "r",
      "f", "\x1cq"]
    let pairs := standard.entries ++ [("x", 0xF), ("v", 0x0)]
    (names.length = 16 ∧ (names.map Text.strip).Nodup ∧
      ∃ l, ofNames names = .ok l ∧ l.lookup "x" = some 0x0 ∧ l.lookup "v" = some 0xF ∧
        l.lookup " x" ≠ some 0x0) ∧
    (alike.Nodup ∧ ¬ ∃ l, ofNames alike = .ok l) ∧
    ∃ l, ofPairs pairs = .ok l ∧ l.Bijective ∧ l.lookup "x" = some 0xF ∧
      l.lookup "v" = some 0x0 := by
  intro names alike pairs
  obtain ⟨⟨-, hlast, -⟩, hpairs, hread, hnames, hnamed, -⟩ := accepted_iff_bijection pairs names
  obtain ⟨-, -, -, halike, -, -⟩ := accepted_iff_bijection pairs alike
  have hdistinct : names.length = 16 ∧ (names.map Text.strip).Nodup := by decide +kernel
  obtain ⟨l, hl⟩ := hnames.2 hdistinct
  obtain ⟨-, hlookup⟩ := hnamed l hl
  obtain ⟨m, hm⟩ := hpairs.2 (by decide +kernel)
  obtain ⟨hbijective, hfound⟩ := hread m hm
  refine ⟨⟨hdistinct.1, hdistinct.2, l, hl, (hlookup _ _).2 ⟨0, rfl, by decide +kernel⟩,
    (hlookup _ _).2 ⟨15, rfl, by decide +kernel⟩, fun h => ?_⟩, ⟨by decide, fun h => ?_⟩,
    m, hm, hbijective, ?_, ?_⟩
  · obtain ⟨k, hk, hname⟩ := (hlookup _ _).1 h
    rw [← Int.natCast_inj.1 hk] at hname
    revert hname
    decide +kernel
  · exact absurd (halike.1 h) (by decide +kernel)
  · rw [hfound, hlast]; decide +kernel
  · rw [hfound, hlast]; decide +kernel

end

end KeyLayout

end ChipEight
