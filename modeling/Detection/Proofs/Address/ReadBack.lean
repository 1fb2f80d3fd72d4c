import Detection.Address
import Detection.Proofs.Json.Numbers
import Detection.Proofs.Success
import Detection.Proofs.Text.Split

/-! # Addresses are read back from their text

The text of an address of version 6 leaves out one run of zero groups, which the reader fills in
again. A zone is read back where a reader could have found it.
-/

namespace Detection.Address

/-! ## Version 4 -/

open Json (Digits)
open Text (join split)

theorem octet?_octetChars (b : UInt8) : octet? (octetChars b) = some b := by
  have hb := b.toNat_lt
  have hne : (octetChars b).isEmpty = false := by
    rw [List.isEmpty_eq_false_iff]
    exact Nat.toDigits_ne_nil
  have hdigits : (octetChars b).all Char.isDigit = true :=
    List.all_eq_true.mpr (Json.digits_toDigits b.toNat)
  have hlength : (octetChars b).length ≤ 3 :=
    (Nat.length_toDigits_le_iff (by decide) (by decide)).mpr (by omega)
  have hzero : ¬ (octetChars b ≠ ['0'] ∧ (octetChars b).head? = some '0') := by
    rintro ⟨hne, hhead⟩
    by_cases h0 : b.toNat = 0
    · rw [octetChars, h0] at hne
      exact hne rfl
    · exact Json.head?_toDigits h0 hhead
  have hvalue : Nat.ofDigitChars 10 (octetChars b) 0 = b.toNat := Nat.ofDigitChars_ten_toDigits
  unfold octet?
  rw [if_neg (by simp [hne, hdigits, hlength]), if_neg (by simpa using hzero)]
  simp only [hvalue, if_pos (show b.toNat ≤ 255 by omega)]
  rw [show b.toNat.toUInt8 = b from UInt8.ofNat_toNat]

theorem dot_not_mem_octetChars (b : UInt8) : '.' ∉ octetChars b := fun h => by
  have := Json.digits_toDigits b.toNat _ h
  cases this

theorem octets?_join (o : Vector UInt8 4) :
    octets? (join ['.'] (o.toList.map octetChars)) = some o := by
  obtain ⟨⟨l⟩, hl⟩ := o
  obtain ⟨a, b, c, d, rfl⟩ := List.length_eq_four.mp hl
  have hsplit : split '.' (join ['.'] ([a, b, c, d].map octetChars)) =
      [a, b, c, d].map octetChars := Text.split_join
    (List.forall_mem_map.mpr fun b _ => dot_not_mem_octetChars b)
  have hread : ([a, b, c, d].map octetChars).mapM octet? = some [a, b, c, d] :=
    mapM_readBack octet?_octetChars _
  rw [octets?]
  simp only [Vector.toList_mk, hsplit, hread]

theorem mapM_none {α β : Type} {f : α → Option β} {xs : List α} {x : α} (hx : x ∈ xs)
    (h : f x = none) : xs.mapM f = none := by
  induction xs with
  | nil => cases hx
  | cons y xs ih =>
    rw [List.mapM_cons]
    rcases List.mem_cons.mp hx with rfl | hx
    · rw [h]
      rfl
    · rw [ih hx]
      cases f y <;> rfl

theorem octets?_of_mem {cs : List Char} {c : Char} (hc : c ∈ cs) (hdigit : c.isDigit = false)
    (hdot : c ≠ '.') : octets? cs = none := by
  obtain ⟨p, hp, hmem⟩ := Text.mem_split hc hdot
  have hall : p.all Char.isDigit = false := by
    rw [List.all_eq_false]
    exact ⟨c, hmem, by simp [hdigit]⟩
  have hnone : octet? p = none := by
    rw [octet?, if_pos (by simp [hall])]
  rw [octets?, mapM_none hp hnone]

/-! ## Groups -/

theorem hexValue?_digitChar : ∀ n < 16, hexValue? (Nat.digitChar n) = some n := by decide

theorem mapM_hexValue? (n : Nat) :
    ∃ ds, (Nat.toDigits 16 n).mapM hexValue? = some ds ∧
      ds.foldl (fun n d => n * 16 + d) 0 = n := by
  induction n using Nat.strong_induction_on with
  | _ n ih =>
    by_cases hsmall : n < 16
    · rw [Nat.toDigits_of_lt_base hsmall]
      refine ⟨[n], ?_, by simp⟩
      simp [hexValue?_digitChar n hsmall]
    · obtain ⟨ds, hds, hvalue⟩ := ih (n / 16) (by omega)
      have hlast := hexValue?_digitChar (n % 16) (Nat.mod_lt _ (by decide))
      rw [Nat.toDigits_of_base_le (by decide) (by omega)]
      refine ⟨ds ++ [n % 16], ?_, ?_⟩
      · simp [List.mapM_append, hds, hlast]
      · rw [List.foldl_append, hvalue, List.foldl_cons, List.foldl_nil]
        omega

theorem group?_groupChars (g : UInt16) : group? (groupChars g) = some g := by
  have hg := g.toNat_lt
  have hne : (groupChars g).isEmpty = false := by
    rw [List.isEmpty_eq_false_iff]
    exact Nat.toDigits_ne_nil
  have hlength : (groupChars g).length ≤ 4 :=
    (Nat.length_toDigits_le_iff (by decide) (by decide)).mpr (by omega)
  obtain ⟨ds, hds, hvalue⟩ := mapM_hexValue? g.toNat
  rw [← groupChars] at hds
  rw [group?, if_neg (by simp [hne, hlength]), hds, Option.map_some, hvalue]
  exact congrArg some UInt16.ofNat_toNat

/-! ## The run of zero groups that is left out -/

theorem drop_longestZeros (gs : List UInt16) :
    (longestZeros gs).2 ≤ ((gs.drop (longestZeros gs).1).takeWhile (· = 0)).length := by
  let run (i : Nat) := ((gs.drop i).takeWhile (· = 0)).length
  refine List.foldlRecOn (motive := fun best : Nat × Nat => best.2 ≤ run best.1)
    (List.range gs.length) _ (Nat.zero_le _) fun best hbest i _ => ?_
  simp only
  split
  · exact Nat.le_refl _
  · exact hbest

theorem split_longestZeros (gs : List UInt16) :
    gs = gs.take (longestZeros gs).1 ++ List.replicate (longestZeros gs).2 0 ++
      gs.drop ((longestZeros gs).1 + (longestZeros gs).2) := by
  have hle := drop_longestZeros gs
  generalize (longestZeros gs).1 = start at hle ⊢
  generalize (longestZeros gs).2 = count at hle ⊢
  have hzeros : (gs.drop start).take count = List.replicate count 0 := by
    have htake : (gs.drop start).take count = ((gs.drop start).takeWhile (· = 0)).take count := by
      conv_lhs => rw [← List.takeWhile_append_dropWhile (p := (· = 0)) (l := gs.drop start)]
      rw [List.take_append_of_le_length hle]
    rw [htake, List.eq_replicate_iff, List.length_take, Nat.min_eq_left hle]
    refine ⟨rfl, fun g hg => ?_⟩
    have hall := List.all_takeWhile (p := (· = (0 : UInt16))) (l := gs.drop start)
    simpa using List.all_eq_true.mp hall g (List.mem_of_mem_take hg)
  rw [← hzeros, ← List.drop_drop, List.append_assoc, List.take_append_drop,
    List.take_append_drop]

/-! ## The parts between colons -/

theorem isEmpty_groupChars (g : UInt16) : (groupChars g).isEmpty = false := by
  rw [List.isEmpty_eq_false_iff]
  exact Nat.toDigits_ne_nil

@[simp] theorem mapM_group? (gs : List UInt16) : gs.mapM (group? ∘ groupChars) = some gs := by
  rw [← List.mapM_map]
  exact mapM_readBack group?_groupChars gs

theorem filter_groupChars {gs : List UInt16} {parts : List (List Char)}
    (h : parts ⊆ gs.map groupChars) : parts.filter List.isEmpty = [] := by
  rw [List.filter_eq_nil_iff]
  intro p hp
  obtain ⟨g, -, rfl⟩ := List.mem_map.mp (h hp)
  simp [isEmpty_groupChars]

/-- The parts on one side of the double colon; where there is no group, an empty one is read. -/
def besideGap (gs : List UInt16) : List (List Char) :=
  if gs.map groupChars = [] then [[]] else gs.map groupChars

theorem besideGap_cases (gs : List UInt16) :
    gs = [] ∧ besideGap gs = [[]] ∨ gs ≠ [] ∧ besideGap gs = gs.map groupChars := by
  unfold besideGap
  cases gs with
  | nil => exact .inl ⟨rfl, rfl⟩
  | cons g gs => exact .inr ⟨nofun, rfl⟩

theorem besideGap_ne_nil (gs : List UInt16) : besideGap gs ≠ [] := by
  rcases besideGap_cases gs with ⟨-, heq⟩ | ⟨hne, heq⟩
  · simp [heq]
  · simpa [heq] using hne

theorem tail_besideGap (gs : List UInt16) : (besideGap gs).tail ⊆ gs.map groupChars := by
  rcases besideGap_cases gs with ⟨-, heq⟩ | ⟨-, heq⟩
  · simp [heq]
  · rw [heq]
    exact List.tail_subset _

theorem dropLast_besideGap (gs : List UInt16) : (besideGap gs).dropLast ⊆ gs.map groupChars := by
  rcases besideGap_cases gs with ⟨-, heq⟩ | ⟨-, heq⟩
  · simp [heq]
  · rw [heq]
    exact List.dropLast_subset _

@[simp] theorem dropEmptyEnd_besideGap (gs : List UInt16) :
    dropEmptyEnd (besideGap gs) = gs.map groupChars := by
  rcases besideGap_cases gs with ⟨rfl, heq⟩ | ⟨-, heq⟩
  · rw [heq]
    rfl
  · have hne : gs.map groupChars ≠ [[]] := by
      intro h
      have hempty := isEmpty_groupChars
      cases gs with
      | nil => cases h
      | cons g gs =>
        rw [List.map_cons, List.cons.injEq] at h
        have := hempty g
        rw [h.1] at this
        cases this
    rw [heq, dropEmptyEnd, if_neg hne]

theorem groupsOfParts?_whole {gs : List UInt16} (h : gs.length = 8) :
    groupsOfParts? (gs.map groupChars) = some gs := by
  have hinner : (gs.map groupChars).tail.dropLast.filter List.isEmpty = [] :=
    filter_groupChars (List.Subset.trans (List.dropLast_subset _) (List.tail_subset _))
  simp [groupsOfParts?, hinner, h]

theorem groupsOfParts?_gap {high low : List UInt16} (h : high.length + low.length < 8) :
    groupsOfParts? (besideGap high ++ [] :: besideGap low) =
      some (high ++ List.replicate (8 - (high.length + low.length)) 0 ++ low) := by
  -- an empty part in front or behind belongs to the gap, too
  have hinner : (besideGap high ++ [] :: besideGap low).tail.dropLast =
      (besideGap high).tail ++ [] :: (besideGap low).dropLast := by
    rw [List.tail_append_of_ne_nil (besideGap_ne_nil high),
      List.dropLast_append_of_ne_nil (List.cons_ne_nil _ _),
      List.dropLast_cons_of_ne_nil (besideGap_ne_nil low)]
  have hcount : ((besideGap high).tail ++ [] :: (besideGap low).dropLast).filter List.isEmpty =
      [[]] := by
    rw [List.filter_append, filter_groupChars (tail_besideGap high),
      List.filter_cons_of_pos rfl, filter_groupChars (dropLast_besideGap low), List.nil_append]
  have hgap : 1 + ((besideGap high).tail ++ [] :: (besideGap low).dropLast).findIdx List.isEmpty =
      (besideGap high).length := by
    have hnone : (besideGap high).tail.findIdx List.isEmpty = (besideGap high).tail.length := by
      refine List.findIdx_eq_length_of_false fun p hp => ?_
      exact Bool.eq_false_iff.mpr
        (List.filter_eq_nil_iff.mp (filter_groupChars (tail_besideGap high)) p hp)
    have hpos := List.length_pos_of_ne_nil (besideGap_ne_nil high)
    rw [List.findIdx_append, hnone, if_neg (Nat.lt_irrefl _), List.length_tail]
    simp only [List.findIdx_cons, List.isEmpty_nil, cond_true]
    omega
  have htake : (besideGap high ++ [] :: besideGap low).take (besideGap high).length =
      besideGap high := List.take_left' rfl
  have hdrop : (besideGap high ++ [] :: besideGap low).drop ((besideGap high).length + 1) =
      besideGap low := by
    rw [List.append_cons]
    exact List.drop_left' (by simp)
  simp [groupsOfParts?, hinner, hcount, hgap, htake, hdrop, h]

/-! ## The text of the groups -/

/-- The text has all groups, or a double colon for at least one group of zeros. -/
theorem groupsChars_cases {gs : List UInt16} (h : gs.length = 8) :
    groupsChars gs = join [':'] (gs.map groupChars) ∨
      ∃ high low, high.length + low.length < 8 ∧
        gs = high ++ List.replicate (8 - (high.length + low.length)) 0 ++ low ∧
        groupsChars gs = join [':'] (high.map groupChars) ++
          ':' :: ':' :: join [':'] (low.map groupChars) := by
  have hsplit := split_longestZeros gs
  have hgroups : groupsChars gs = if (longestZeros gs).2 < 2 then join [':'] (gs.map groupChars)
      else join [':'] ((gs.take (longestZeros gs).1).map groupChars) ++ [':', ':'] ++
        join [':'] ((gs.drop ((longestZeros gs).1 + (longestZeros gs).2)).map groupChars) := rfl
  rw [hgroups]
  by_cases hcount : (longestZeros gs).2 < 2
  · exact .inl (if_pos hcount)
  · refine .inr ⟨_, _, ?_, ?_, by rw [if_neg hcount, List.append_assoc]; rfl⟩
    · have hlength := congrArg List.length hsplit
      simp only [List.length_append, List.length_replicate] at hlength
      omega
    · have hlength := congrArg List.length hsplit
      simp only [List.length_append, List.length_replicate] at hlength
      have hrun : 8 - ((gs.take (longestZeros gs).1).length +
          (gs.drop ((longestZeros gs).1 + (longestZeros gs).2)).length) = (longestZeros gs).2 := by
        omega
      rw [hrun]
      exact hsplit

theorem not_mem_groupChars {c : Char} (hc : hexValue? c = none) (g : UInt16) :
    c ∉ groupChars g := by
  intro hmem
  obtain ⟨ds, hds, -⟩ := mapM_hexValue? g.toNat
  rw [← groupChars, mapM_none hmem hc] at hds
  cases hds

theorem not_mem_parts {c : Char} (hc : hexValue? c = none) (gs : List UInt16) :
    ∀ p ∈ gs.map groupChars, c ∉ p :=
  List.forall_mem_map.mpr fun g _ => not_mem_groupChars hc g

theorem colon_mem_groupsChars {gs : List UInt16} (h : gs.length = 8) : ':' ∈ groupsChars gs := by
  rcases groupsChars_cases h with heq | ⟨high, low, -, -, heq⟩
  · rw [heq]
    match gs, h with
    | a :: b :: rest, _ => simp [join]
  · simp [heq]

theorem not_mem_groupsChars {c : Char} (hc : hexValue? c = none) (hcolon : c ≠ ':')
    {gs : List UInt16} (h : gs.length = 8) : c ∉ groupsChars gs := by
  have hjoin (gs : List UInt16) : c ∉ join [':'] (gs.map groupChars) :=
    Text.not_mem_join (by simpa using hcolon) (not_mem_parts hc gs)
  rcases groupsChars_cases h with heq | ⟨high, low, -, -, heq⟩
  · rw [heq]
    exact hjoin gs
  · rw [heq]
    simp [hcolon, hjoin]

theorem expandTail_of_not_mem {parts : List (List Char)} (h : ∀ p ∈ parts, '.' ∉ p) :
    expandTail parts = some parts := by
  unfold expandTail
  split
  · rename_i last hlast
    have hdot : ¬ last.contains '.' = true := by
      simpa using h last (List.mem_of_getLast? hlast)
    rw [if_neg hdot]
  · rfl

theorem exists_eight {gs : List UInt16} (hlength : gs.length = 8) :
    ∃ a b c d e f g h, gs = [a, b, c, d, e, f, g, h] := by
  obtain ⟨a, b, c, d, hfront⟩ := List.length_eq_four.mp
    (show (gs.take 4).length = 4 by rw [List.length_take, hlength]; rfl)
  obtain ⟨e, f, g, h, hback⟩ := List.length_eq_four.mp
    (show (gs.drop 4).length = 4 by rw [List.length_drop, hlength])
  refine ⟨a, b, c, d, e, f, g, h, ?_⟩
  rw [← List.take_append_drop 4 gs, hfront, hback]
  rfl

@[simp] theorem groups?_groupsChars (g : Vector UInt16 8) : groups? (groupsChars g.toList) = some g := by
  have hlength : g.toList.length = 8 := g.length_toList
  have hcolon (gs : List UInt16) := not_mem_parts (c := ':') (by decide) gs
  have hdot (gs : List UInt16) := not_mem_parts (c := '.') (by decide) gs
  -- all eight groups, or those beside the gap
  have hparts : ∃ parts, split ':' (groupsChars g.toList) = parts ∧ 3 ≤ parts.length ∧
      (∀ p ∈ parts, '.' ∉ p) ∧ groupsOfParts? parts = some g.toList := by
    rcases groupsChars_cases hlength with heq | ⟨high, low, hfew, hgroups, heq⟩
    · have hne : g.toList.map groupChars ≠ [] := by
        intro h
        have := congrArg List.length h
        rw [List.length_map, hlength] at this
        cases this
      refine ⟨_, by rw [heq, Text.split_join (hcolon _), if_neg hne], ?_, hdot _,
        groupsOfParts?_whole hlength⟩
      rw [List.length_map, hlength]
      decide
    · have hbeside (gs : List UInt16) : ∀ p ∈ besideGap gs, '.' ∉ p := by
        rcases besideGap_cases gs with ⟨-, h⟩ | ⟨-, h⟩
        · simp [h]
        · rw [h]
          exact hdot gs
      refine ⟨besideGap high ++ [] :: besideGap low, ?_, ?_, ?_, ?_⟩
      · rw [heq, Text.split_join_append (hcolon _), split, if_pos rfl, Text.split_join (hcolon _)]
        rfl
      · have hhigh := List.length_pos_of_ne_nil (besideGap_ne_nil high)
        have hlow := List.length_pos_of_ne_nil (besideGap_ne_nil low)
        simp only [List.length_append, List.length_cons]
        omega
      · simp only [List.forall_mem_append, List.forall_mem_cons]
        exact ⟨hbeside high, List.not_mem_nil, hbeside low⟩
      · rw [groupsOfParts?_gap hfew, ← hgroups]
  obtain ⟨parts, hsplit, hthree, hnodot, hread⟩ := hparts
  have hlong : ¬ parts.length < 3 := by omega
  rw [groups?, hsplit, if_neg hlong, expandTail_of_not_mem hnodot, Option.bind_eq_bind,
    Option.bind_some, hread]
  obtain ⟨⟨l⟩, hl⟩ := g
  obtain ⟨a, b, c, d, e, f, g, h, rfl⟩ := exists_eight hl
  rfl

/-! ## Whole addresses -/

def zoneFits (zone : String) : Bool :=
  !zone.toList.isEmpty && !zone.toList.contains '%' && !zone.toList.contains '/'

def isReadable : Address → Bool
  | .v4 _ | .v6 _ none => true
  | .v6 _ (some zone) => zoneFits zone

theorem isReadable_of_v6? {cs : List Char} (hslash : cs.contains '/' = false) {a : Address}
    (h : v6? cs = some a) : a.isReadable = true := by
  unfold v6? at h
  split at h
  · obtain ⟨g, -, rfl⟩ := Option.map_eq_some_iff.mp h
    rfl
  · rename_i body zone hcut
    split at h
    · cases h
    · rename_i hzone
      obtain ⟨g, -, rfl⟩ := Option.map_eq_some_iff.mp h
      simp only [Bool.or_eq_true, not_or, Bool.not_eq_true] at hzone
      have hpath : zone.contains '/' = false := by
        rw [List.contains_eq_mem, decide_eq_false_iff_not] at hslash ⊢
        exact fun hmem => hslash (Text.subset_of_cut hcut hmem)
      simp only [isReadable, zoneFits, String.toList_ofList, hzone, hpath]
      rfl

theorem isReadable_of_parse? {text : String} {a : Address} (h : parse? text = some a) :
    a.isReadable = true := by
  simp only [parse?] at h
  split at h
  · cases h
  · rename_i hslash
    split at h
    · cases h
      rfl
    · exact isReadable_of_v6? (Bool.eq_false_iff.mpr hslash) h

theorem v6?_groupsChars (g : Vector UInt16 8) :
    v6? (groupsChars g.toList) = some (.v6 g none) := by
  have hcut := Text.cut_of_not_mem
    (not_mem_groupsChars (c := '%') (by decide) (by decide) g.length_toList)
  simp [v6?, hcut]

theorem v6?_zone (g : Vector UInt16 8) {zone : String} (h : zoneFits zone = true) :
    v6? (groupsChars g.toList ++ '%' :: zone.toList) = some (.v6 g (some zone)) := by
  have hcut := Text.cut_append
    (not_mem_groupsChars (c := '%') (by decide) (by decide) g.length_toList) zone.toList
  simp only [zoneFits, Bool.and_eq_true, Bool.not_eq_true', List.contains_eq_mem,
    decide_eq_false_iff_not] at h
  simp [v6?, hcut, h]

theorem parse?_text {a : Address} (h : a.isReadable = true) : parse? a.text = some a := by
  have hslashes (g : Vector UInt16 8) : '/' ∉ groupsChars g.toList :=
    not_mem_groupsChars (by decide) (by decide) g.length_toList
  have hcolon (g : Vector UInt16 8) := colon_mem_groupsChars g.length_toList
  rw [text, parse?, String.toList_ofList]
  match a with
  | .v4 o =>
    have hslash : '/' ∉ chars (.v4 o) := by
      refine Text.not_mem_join (by decide) (List.forall_mem_map.mpr fun b _ hmem => ?_)
      cases Json.digits_toDigits b.toNat _ hmem
    rw [if_neg (by simpa using hslash), chars, octets?_join]
  | .v6 g none =>
    rw [chars, if_neg (by simpa using hslashes g), octets?_of_mem (hcolon g) rfl (by decide)]
    exact v6?_groupsChars g
  | .v6 g (some zone) =>
    have hzone := h
    simp only [isReadable, zoneFits, Bool.and_eq_true, Bool.not_eq_true', List.contains_eq_mem,
      decide_eq_false_iff_not] at hzone
    have hslash : '/' ∉ groupsChars g.toList ++ '%' :: zone.toList := by
      simp [hslashes g, hzone.2]
    rw [chars, if_neg (by simpa using hslash),
      octets?_of_mem (List.mem_append_left _ (hcolon g)) rfl (by decide)]
    exact v6?_zone g h

theorem parse?_text_iff {a : Address} : parse? a.text = some a ↔ a.isReadable = true :=
  ⟨isReadable_of_parse?, parse?_text⟩

end Detection.Address
