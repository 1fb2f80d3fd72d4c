import Detection.Proofs.Line.Texts
import Detection.Proofs.Loader.Outcome

/-! # Reading the pairs of a line back

A name reaches up to the first equals sign, the text behind it up to the next space outside of quotes.
-/

namespace Detection

/-! ## The reader -/

/-- What a reader has read of a pair: part of its name, or its name and part of its text. -/
inductive Scan where
  | name (read : List Char)
  | text (name read : List Char) (quotes : Quotes)

def Scan.pairs : Scan → List Char → Option (List Pair)
  | .name _, [] => none
  | .name n, c :: cs =>
    if c = '=' then (Scan.text n [] .outside).pairs cs else (Scan.name (n ++ [c])).pairs cs
  | .text n t _, [] => some [(String.ofList n, String.ofList t)]
  | .text n t q, c :: cs =>
    if q = .outside ∧ c = ' ' then
      ((Scan.name []).pairs cs).map fun ps => (String.ofList n, String.ofList t) :: ps
    else (Scan.text n (t ++ [c]) (q.step c)).pairs cs

def readPairs (line : String) : Option (List Pair) := (Scan.name []).pairs line.toList

/-! ## One pair -/

namespace Scan

theorem pairs_name (n : List Char) {name : List Char} (h : '=' ∉ name) (cs : List Char) :
    (Scan.name n).pairs (name ++ '=' :: cs) = (Scan.text (n ++ name) [] .outside).pairs cs := by
  induction name generalizing n with
  | nil => simp [pairs]
  | cons c name ih =>
    rw [List.mem_cons, not_or] at h
    rw [List.cons_append, pairs, if_neg (Ne.symm h.1), ih _ h.2, List.append_assoc]
    rfl

theorem pairs_text (n r : List Char) {q q' : Quotes} {text : List Char}
    (h : q.through text = some q') (cs : List Char) :
    (Scan.text n r q).pairs (text ++ cs) = (Scan.text n (r ++ text) q').pairs cs := by
  induction text generalizing q r with
  | nil =>
    cases h
    rw [List.nil_append, List.append_nil]
  | cons c text ih =>
    rw [Quotes.through] at h
    split at h
    · cases h
    · rename_i hc
      rw [List.cons_append, pairs, if_neg hc, ih _ h, List.append_assoc]
      rfl

theorem exists_text {n r cs : List Char} {q : Quotes} {p : Pair} {ps : List Pair}
    (h : (Scan.text n r q).pairs cs = some (p :: ps)) : ∃ s, p.2 = String.ofList (r ++ s) := by
  induction cs generalizing r q with
  | nil =>
    cases h
    exact ⟨[], by rw [List.append_nil]⟩
  | cons c cs ih =>
    rw [pairs] at h
    split at h
    · obtain ⟨qs, -, hqs⟩ := Option.map_eq_some_iff.mp h
      cases hqs
      exact ⟨[], by rw [List.append_nil]⟩
    · obtain ⟨s, hs⟩ := ih h
      exact ⟨c :: s, by rw [hs, List.append_assoc]; rfl⟩

theorem through_of_pairs {n r text cs : List Char} {q : Quotes} {p : Pair} {ps : List Pair}
    (h : (Scan.text n r q).pairs (text ++ ' ' :: cs) = some (p :: ps))
    (hp : p.2 = String.ofList (r ++ text)) : q.through text = some .outside := by
  induction text generalizing r q with
  | nil =>
    rw [List.nil_append, pairs] at h
    split at h
    · rename_i hq
      rw [hq.1]
      rfl
    · -- the space belongs to the text, which is longer then
      obtain ⟨s, hs⟩ := exists_text h
      rw [hp, String.ofList_inj, List.append_assoc, List.append_cancel_left_eq] at hs
      simp at hs
  | cons c text ih =>
    rw [List.cons_append, pairs] at h
    split at h
    · obtain ⟨qs, -, hqs⟩ := Option.map_eq_some_iff.mp h
      cases hqs
      simp only [String.ofList_inj, List.self_eq_append_right, reduceCtorEq] at hp
    · rename_i hc
      rw [Quotes.through, if_neg hc]
      exact ih h (by rw [hp, List.append_assoc]; rfl)

end Scan

/-! ## All pairs -/

def pairChars (p : Pair) : List Char := p.1.toList ++ '=' :: p.2.toList

theorem toList_pairsText (ps : List Pair) :
    (pairsText ps).toList = Text.join [' '] (ps.map pairChars) := by
  have hmap : (ps.map fun p => p.1 ++ "=" ++ p.2).map String.toList = ps.map pairChars := by
    rw [List.map_map]
    apply List.map_congr_left
    intro p _
    simp [pairChars]
  rw [pairsText_eq, Text.joinTexts, String.toList_ofList, hmap]
  rfl

theorem pairs_pairChars {p : Pair} (hname : '=' ∉ p.1.toList) (cs : List Char) :
    (Scan.name []).pairs (pairChars p ++ cs) =
      (Scan.text p.1.toList [] .outside).pairs (p.2.toList ++ cs) := by
  rw [pairChars, List.append_assoc, List.cons_append, Scan.pairs_name [] hname]
  rfl

theorem pairs_framed {p : Pair} (hname : '=' ∉ p.1.toList) (hframed : Framed p.2.toList)
    (cs : List Char) :
    (Scan.name []).pairs (pairChars p ++ ' ' :: cs) = ((Scan.name []).pairs cs).map (p :: ·) := by
  rw [pairs_pairChars hname, Scan.pairs_text _ _ hframed, Scan.pairs, if_pos ⟨rfl, rfl⟩]
  simp

/-- A line reads back as its pairs exactly when all texts in it are framed. -/
theorem readPairs_pairsText {ps : List Pair} (hne : ps ≠ [])
    (hnames : ∀ p ∈ ps, '=' ∉ p.1.toList) (hlast : ∀ p ∈ ps.getLast?, Framed p.2.toList) :
    readPairs (pairsText ps) = some ps ↔ ∀ p ∈ ps, Framed p.2.toList := by
  -- a text is left at the first blank that is outside all frames, so one text may end too soon
  rw [readPairs, toList_pairsText]
  induction ps with
  | nil => exact absurd rfl hne
  | cons p ps ih =>
    have hname := hnames p List.mem_cons_self
    cases ps with
    | nil =>
      have hframed : Framed p.2.toList := hlast p rfl
      rw [List.map_cons, List.map_nil, Text.join, ← List.append_nil (pairChars p),
        pairs_pairChars hname, Scan.pairs_text _ _ hframed, Scan.pairs]
      simp [hframed]
    | cons q qs =>
      have hrest := ih (by simp) (fun r hr => hnames r (List.mem_cons_of_mem _ hr))
        (by simpa using hlast)
      rw [List.map_cons, List.map_cons, Text.join, ← List.map_cons, List.append_assoc,
        List.singleton_append, List.forall_mem_cons, ← hrest]
      constructor
      · intro h
        have hframed : Framed p.2.toList := by
          rw [pairs_pairChars hname] at h
          exact Scan.through_of_pairs h (by simp)
        rw [pairs_framed hname hframed, Option.map_eq_some_iff] at h
        obtain ⟨rs, hrs, heq⟩ := h
        cases heq
        exact ⟨hframed, hrs⟩
      · rintro ⟨hframed, h⟩
        rw [pairs_framed hname hframed, h]
        rfl

/-! ## The lines of events -/

theorem Kind.shownLabels_plain :
    ∀ k ∈ registered, ∀ f ∈ k.shownFields, '=' ∉ f.label.toList := by
  intro k hk f hf hmem
  have hequals := List.all_eq_true.mp (shownLabels_spelled hk hf) _ hmem
  revert hequals
  decide

namespace Event

theorem labelled_ne_nil (k : Kind) (text : Field → String) : labelled text k.shownFields ≠ [] := by
  simp [labelled, Kind.shownFields]

theorem getLast?_labelled (k : Kind) (text : Field → String) :
    (labelled text k.shownFields).getLast? =
      some (Fields.triageScores.label, text Fields.triageScores) := by
  have hlast : labelled text k.shownFields =
      labelled text ([Fields.category, Fields.sensor] ++ k.sideFields ++ [Fields.proto] ++
        k.details ++ [Fields.confidence]) ++
        [(Fields.triageScores.label, text Fields.triageScores)] := by
    simp [labelled, Kind.shownFields, Kind.laterFields]
  rw [hlast, List.getLast?_concat]

/-- The line of a record's event reads back as its pairs exactly when the zones of the addresses in
each attribute are framed, one behind the other. -/
theorem readPairs_iff {record : Value} {e : Event} (h : ofRecord record = .ok e) :
    ∃ ps, e.pairs = .ok ps ∧ e.pairsText = .ok (Detection.pairsText ps) ∧
      (readPairs (Detection.pairsText ps) = some ps ↔
        ∀ f ∈ e.kind.fields, Framed (Text.joinTexts "," (e.get f.name).zones).toList) := by
  have hloaded := loaded_of_ofRecord h
  have hk := hloaded.registered
  obtain ⟨text, htext, hpairs⟩ := exists_texts hloaded
  refine ⟨_, hpairs, by rw [Event.pairsText, hpairs]; rfl, ?_⟩
  have hadmits : ∀ f ∈ e.kind.shownFields, f.type.Admits (e.get f.name) := fun f hf =>
    hloaded.admits f (Kind.mem_fields_iff.mpr (.inr hf))
  have hnames : ∀ p ∈ labelled text e.kind.shownFields, '=' ∉ p.1.toList := by
    intro p hp
    obtain ⟨f, hf, rfl⟩ := List.mem_map.mp hp
    exact Kind.shownLabels_plain _ hk f hf
  -- the last pair shows scores, which hold no address
  have hlast : ∀ p ∈ (labelled text e.kind.shownFields).getLast?, Framed p.2.toList := by
    intro p hp
    rw [getLast?_labelled] at hp
    cases hp
    have htriage : Fields.triageScores ∈ e.kind.shownFields := by
      simp [Kind.shownFields, Kind.laterFields]
    exact (sealed_shownText rfl (hadmits _ htriage) (htext _ htriage)).framed
  have hzones : ∀ f ∈ e.kind.shownFields,
      (Framed (text f).toList ↔ Framed (Text.joinTexts "," (e.get f.name).zones).toList) :=
    fun f hf => (shownText_zones hk hf (hadmits f hf) (htext f hf)).1
  have hnil : Framed (Text.joinTexts "," []).toList := rfl
  rw [readPairs_pairsText (labelled_ne_nil _ _) hnames hlast,
    forall_fields_iff hloaded (P := fun zones => Framed (Text.joinTexts "," zones).toList) hnil,
    labelled, List.forall_mem_map]
  exact forall₂_congr hzones

theorem readPairs_portScan :
    ∃ e, ofRecord (portScan "fe80::1%eth0") = .ok e ∧
      ∃ ps, e.pairs = .ok ps ∧ e.pairsText = .ok (Detection.pairsText ps) ∧
        (readPairs (Detection.pairsText ps) = some ps ↔
          ∀ f ∈ e.kind.fields, Framed (Text.joinTexts "," (e.get f.name).zones).toList) := by
  obtain ⟨e, he⟩ := exists_portScan
  exact ⟨e, he, readPairs_iff he⟩

/-- A zone with a space in it ends its pair, and what follows reads as another one. -/
theorem readPairs_forged :
    ∃ e ps, ofRecord (portScan "fe80::1%a b=c") = .ok e ∧ e.pairs = .ok ps ∧
      readPairs (Detection.pairsText ps) ≠ some ps := by
  have hread : (do
      let e ← (ofRecord (portScan "fe80::1%a b=c")).toOption
      let ps ← e.pairs.toOption
      pure (readPairs (Detection.pairsText ps) == some ps)) = some false := by decide +kernel
  simp only [Option.bind_eq_bind, Option.bind_eq_some_iff, toOption_eq_some, Option.pure_def,
    Option.some.injEq, beq_eq_false_iff_ne] at hread
  obtain ⟨e, he, ps, hps, hne⟩ := hread
  exact ⟨e, ps, he, hps, hne⟩

end Event

end Detection
