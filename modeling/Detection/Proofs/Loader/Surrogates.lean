import Detection.Proofs.Line.OneLine
import Detection.Proofs.Loader.Issues
import Detection.Proofs.Text.Utf8

/-! # Surrogates that stand alone

A document can hold strings that are no text. No event has one: what a record supplies goes through
a document unchanged, or not at all.
-/

namespace Detection

open FieldType (Admits)

/-! ## Values with a broken string -/

namespace Value

mutual

/-- Some string of the value, at any depth, has a surrogate that stands alone. -/
def hasBroken : Value → Bool
  | .broken _ => true
  | .list items | .tuple items => hasBrokenAmong items
  | .dict entries => hasBrokenEntries entries
  | .score p s => hasBroken p || hasBroken s
  | .command c k r => hasBroken c || hasBroken k || hasBroken r
  | .endpoint a p c => hasBroken a || hasBroken p || hasBroken c
  | .multiPort a p c => hasBroken a || hasBrokenAmong p || hasBroken c
  | .group a p c => hasBrokenAmong a || hasBrokenAmong p || hasBrokenAmong c
  | _ => false

def hasBrokenAmong : List Value → Bool
  | [] => false
  | v :: vs => hasBroken v || hasBrokenAmong vs

def hasBrokenEntries : Mapping → Bool
  | [] => false
  | (key, v) :: es => hasBroken key || hasBroken v || hasBrokenEntries es

end

theorem hasBrokenAmong_iff {vs : List Value} :
    hasBrokenAmong vs = true ↔ ∃ v ∈ vs, v.hasBroken = true := by
  induction vs with
  | nil => simp [hasBrokenAmong]
  | cons v vs ih => simp [hasBrokenAmong, ih]

theorem not_hasBroken_of_isText {v : Value} (h : v.isText = true) : v.hasBroken = false := by
  cases v <;> first | rfl | cases h

mutual

theorem not_hasBroken_of_fits {d : Json.Dialect} : ∀ (v : Value) {depth : Nat},
    v.isDocument = true → v.fits d depth = true → v.hasBroken = false
  | .none, _, _, _ | .flag _, _, _, _ | .int _, _, _, _ | .real _, _, _, _
  | .text _, _, _, _ => rfl
  | .broken _, _, _, hfits => by cases hfits
  | .list items, _, h, hfits => by
    rw [fits, Bool.and_eq_true] at hfits
    exact not_hasBrokenAmong_of_fits items h hfits.2
  | .dict entries, _, h, hfits => by
    rw [fits, Bool.and_eq_true] at hfits
    exact not_hasBrokenEntries_of_fits entries h hfits.2

theorem not_hasBrokenAmong_of_fits {d : Json.Dialect} : ∀ (vs : List Value) {depth : Nat},
    areDocuments vs = true → fitAll d depth vs = true → hasBrokenAmong vs = false
  | [], _, _, _ => rfl
  | v :: vs, _, h, hfits => by
    rw [areDocuments, Bool.and_eq_true] at h
    rw [fitAll, Bool.and_eq_true] at hfits
    rw [hasBrokenAmong, not_hasBroken_of_fits v h.1 hfits.1,
      not_hasBrokenAmong_of_fits vs h.2 hfits.2, Bool.or_false]

theorem not_hasBrokenEntries_of_fits {d : Json.Dialect} : ∀ (es : Mapping) {depth : Nat},
    haveDocuments es = true → fitEntries d depth es = true → hasBrokenEntries es = false
  | [], _, _, _ => rfl
  | (key, v) :: es, _, h, hfits => by
    simp only [haveDocuments, Bool.and_eq_true] at h
    simp only [fitEntries, Bool.and_eq_true] at hfits
    rw [hasBrokenEntries, not_hasBroken_of_isText hfits.1.1,
      not_hasBroken_of_fits v h.1.2 hfits.1.2,
      not_hasBrokenEntries_of_fits es h.2 hfits.2, Bool.or_false, Bool.or_false]

end

theorem unfit_of_hasBroken {v : Value} (h : v.isDocument = true) (hbroken : v.hasBroken = true)
    (d : Json.Dialect) (depth : Nat) : v.fits d depth ≠ true := by
  intro hfits
  rw [not_hasBroken_of_fits v h hfits] at hbroken
  cases hbroken

end Value

theorem FieldType.Admits.not_hasBroken {t : FieldType} {v : Value} (h : Admits t v) :
    v.hasBroken = false := by
  induction h with
  | given h ih => exact ih
  | sequence h ih =>
    rw [Value.hasBroken, ← Bool.not_eq_true, Value.hasBrokenAmong_iff]
    rintro ⟨v, hv, hbroken⟩
    rw [ih v hv] at hbroken
    cases hbroken
  | _ => rfl

namespace Event

theorem get_of_not_mem {e : Event} {name : String} (h : name ∉ e.kind.fieldNames) :
    e.get name = .none := by
  rw [← e.names_eq] at h
  rw [get, List.lookup_eq_none_iff.mpr]
  · rfl
  · intro a ha
    rw [bne_iff_ne]
    rintro rfl
    exact h (List.mem_map_of_mem ha)

theorem Loaded.not_hasBroken {e : Event} (h : e.Loaded) (name : String) :
    (e.get name).hasBroken = false := by
  by_cases hname : name ∈ e.kind.fieldNames
  · obtain ⟨f, hf, rfl⟩ := List.mem_map.mp hname
    exact (h.admits f hf).not_hasBroken
  · rw [get_of_not_mem hname]
    rfl

/-- What a record supplies that fits a reader comes out of the document as it went in, and this is
what the fields are checked against. A record with a broken string is refused, unless a mail has two
senders: then just what is kept must not be broken. So no event holds a broken string, and its lines
can be written as bytes that read back. -/
theorem ofRecord_surrogates {entries : Mapping} {kind : Value} {k : Kind}
    (hdocument : (Value.dict entries).isDocument = true)
    (hkind : entries.get? (.text "kind") = some kind) (hfind : findKind kind = .ok k)
    (hkeys : ∀ a ∈ entries, a.1 ≠ .text "kind" → ∃ name, fieldName? k a.1 = some name) :
    ((Value.dict entries).fits .record 0 = true →
      ∃ m, named k [] (entries.erase (.text "kind")) = .ok m ∧
        Json.read .record (Json.write (.dict m)) = .ok (.dict m) ∧
        (∀ name, m.get? (.text name) = supplied? k entries name) ∧
        (¬ TwoSenders k entries → ∀ a ∈ entries, ∀ name, fieldName? k a.1 = some name →
          m.get? (.text name) = some a.2) ∧
        ofRecord (.dict entries) =
          match Record.checkFields m k.fields with
          | .error issues => .error (.invalid k issues)
          | .ok attributes => (make k attributes).mapError .make) ∧
      ((Value.dict entries).hasBroken = true → ¬ TwoSenders k entries →
        ∃ err, ofRecord (.dict entries) = .error err ∧ err.isRefusal = true) ∧
      (∀ name v, supplied? k entries name = some v → v.hasBroken = true →
        ∃ err, ofRecord (.dict entries) = .error err ∧ err.isRefusal = true) ∧
      ∀ e, ofRecord (.dict entries) = .ok e →
        (∀ name, (e.get name).hasBroken = false) ∧
          (∃ line, e.displayLine = .ok line ∧ Utf8.decode (Utf8.encode line) = .ok line) ∧
          ∀ header, ∃ line, e.syslogLine header = .ok line ∧
            Utf8.decode (Utf8.encode line) = .ok line := by
  have hk := registered_of_findKind hfind
  refine ⟨fun hfits => ?_, fun hbroken htwo => ?_, fun name v hsupplied hbroken => ?_, ?_⟩
  · -- nothing is lost in the document, since all of it fits
    obtain ⟨m, hnamed, heq⟩ := ofRecord_eq hdocument hkind hfind hkeys hfits
    obtain ⟨hm, -⟩ := named_documents hnamed ⟨rfl, by simp⟩ fun a ha =>
      Value.isDocument_of_mem hdocument (mem_erase_kind.mp ha).1
    have hread := Json.read_write (v := .dict m) hm
    rw [fits_named hdocument hnamed hfits] at hread
    refine ⟨m, hnamed, hread, get?_named_erase hk hnamed, fun htwo a ha name hname => ?_, heq⟩
    rw [get?_named_erase hk hnamed, supplied?_eq_some_iff ((apart_iff hk hdocument).mpr htwo)]
    exact ⟨a.1, ha, hname⟩
  · exact ofRecord_unfit hdocument hkind hfind hkeys ((apart_iff hk hdocument).mpr htwo)
      (Value.unfit_of_hasBroken hdocument hbroken _ _)
  · obtain ⟨key, hmem, -⟩ := mem_of_supplied? hsupplied
    exact ofRecord_unfit_value hdocument hkind hfind hkeys hsupplied
      (Value.unfit_of_hasBroken (Value.isDocument_of_mem hdocument hmem) hbroken _ _)
  · intro e he
    have hloaded := loaded_of_ofRecord he
    obtain ⟨text, -, hpairs⟩ := exists_texts hloaded
    have hline := pairsText_of_pairs hpairs
    exact ⟨hloaded.not_hasBroken, ⟨_, displayLine_of_pairsText hline, Utf8.decode_encode _⟩,
      fun header => ⟨_, syslogLine_of_pairsText hline header, Utf8.decode_encode _⟩⟩

def brokenMail (later : Mapping) : Mapping := mail [] ++ (.text "from", .broken [0xD800]) :: later

theorem refused_brokenMail :
    (Value.dict (brokenMail [])).isDocument = true ∧
      (brokenMail []).get? (.text "kind") = some (.text "BlocklistSmtp") ∧
      findKind (.text "BlocklistSmtp") = .ok .blocklistSmtp ∧
      (∀ a ∈ brokenMail [], a.1 ≠ .text "kind" →
        ∃ name, fieldName? .blocklistSmtp a.1 = some name) ∧
      (Value.dict (brokenMail [])).hasBroken = true ∧
      ¬ TwoSenders .blocklistSmtp (brokenMail []) ∧
      ∃ err, ofRecord (.dict (brokenMail [])) = .error err ∧ err.isRefusal = true := by
  have hdocument : (Value.dict (brokenMail [])).isDocument = true := by decide +kernel
  have hkeys : ∀ a ∈ brokenMail [], a.1 ≠ .text "kind" →
      ∃ name, fieldName? .blocklistSmtp a.1 = some name := fieldNames_of_all (by decide +kernel)
  have hbroken : (Value.dict (brokenMail [])).hasBroken = true := by decide +kernel
  have htwo : ¬ TwoSenders .blocklistSmtp (brokenMail []) := by
    rintro ⟨-, -, v, hv⟩
    simp [brokenMail, mail] at hv
  exact ⟨hdocument, rfl, rfl, hkeys, hbroken, htwo,
    (ofRecord_surrogates hdocument rfl rfl hkeys).2.1 hbroken htwo⟩

/-- The sender that is no text gives way to another one, and goes unnoticed. -/
theorem brokenMail_overwritten :
    (Value.dict (brokenMail [(.text "from_", .text "b")])).isDocument = true ∧
      findKind (.text "BlocklistSmtp") = .ok .blocklistSmtp ∧
      (∀ a ∈ brokenMail [(.text "from_", .text "b")], a.1 ≠ .text "kind" →
        ∃ name, fieldName? .blocklistSmtp a.1 = some name) ∧
      (Value.dict (brokenMail [(.text "from_", .text "b")])).hasBroken = true ∧
      ∃ e, ofRecord (.dict (brokenMail [(.text "from_", .text "b")])) = .ok e := by
  refine ⟨by decide +kernel, rfl, fieldNames_of_all (by decide +kernel), by decide +kernel, ?_⟩
  exact exists_of_isSome (by decide +kernel)

end Event

end Detection
