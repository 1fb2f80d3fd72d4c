import Detection.Proofs.Loader.Spellings
import Detection.Proofs.Text.Lossy

/-! # Payloads in two spellings

A payload is bytes, whether a record gives it as text or as a list. Where it is shown as text this
is the text again; where it is shown as hexadecimal numbers the bytes can be read from them.
-/

namespace Detection

/-! ## Bytes as hexadecimal numbers -/

namespace Text

def lowerHexDigits : List Char := "0123456789abcdef".toList

/-- The byte of two hexadecimal digits, none of them in upper case. -/
def hexByte? : List Char → Option UInt8
  | [a, b] => do
    let high ← lowerHexDigits.idxOf? a
    let low ← lowerHexDigits.idxOf? b
    pure (UInt8.ofNat (16 * high + low))
  | _ => none

/-- The bytes of hexadecimal numbers with colons between them. No text is no bytes. -/
def hexBytes? (cs : List Char) : Option (List UInt8) :=
  if cs = [] then some [] else (split ':' cs).mapM hexByte?

theorem idxOf?_digitChar : ∀ d < 16, lowerHexDigits.idxOf? (Nat.digitChar d) = some d := by
  decide

theorem hexDigits_two {n : Nat} (h : n < 256) :
    hexDigits 2 n = [Nat.digitChar (n / 16), Nat.digitChar (n % 16)] := by
  unfold hexDigits
  by_cases hn : n < 16
  · rw [Nat.toDigits_of_lt_base hn, Nat.div_eq_of_lt hn, Nat.mod_eq_of_lt hn]
    rfl
  · rw [Nat.toDigits_of_base_le (by decide) (by omega),
      Nat.toDigits_of_lt_base (by omega : n / 16 < 16)]
    rfl

theorem hexByte?_hexDigits (b : UInt8) : hexByte? (hexDigits 2 b.toNat) = some b := by
  have hb : b.toNat < 256 := b.toNat_lt
  have hsum : 16 * (b.toNat / 16) + b.toNat % 16 = b.toNat := Nat.div_add_mod _ _
  rw [hexDigits_two hb]
  simp only [hexByte?, idxOf?_digitChar (b.toNat / 16) (by omega),
    idxOf?_digitChar (b.toNat % 16) (by omega), Option.bind_eq_bind, Option.bind_some,
    Option.pure_def, hsum, UInt8.ofNat_toNat]

theorem forall_mem_hexDigits {P : Char → Prop} (h : ∀ d < 16, P (Nat.digitChar d)) (b : UInt8) :
    ∀ c ∈ hexDigits 2 b.toNat, P c := by
  have hb : b.toNat < 256 := b.toNat_lt
  rw [hexDigits_two hb]
  refine List.forall_mem_cons.mpr ⟨h _ (by omega), List.forall_mem_singleton.mpr ?_⟩
  exact h _ (by omega)

def colonBytes (bs : List UInt8) : List Char := join [':'] (bs.map fun b => hexDigits 2 b.toNat)

theorem hexBytes?_colonBytes (bs : List UInt8) : hexBytes? (colonBytes bs) = some bs := by
  cases bs with
  | nil => rfl
  | cons b bs =>
    have hcolon : ∀ p ∈ (b :: bs).map fun b => hexDigits 2 b.toNat, ':' ∉ p := by
      refine List.forall_mem_map.mpr fun b _ hmem => ?_
      exact forall_mem_hexDigits (P := (· ≠ ':')) (by decide) b _ hmem rfl
    have hne : colonBytes (b :: bs) ≠ [] := by
      rw [colonBytes, List.map_cons, join_cons, hexDigits_two b.toNat_lt]
      exact List.cons_ne_nil _ _
    rw [hexBytes?, if_neg hne, colonBytes, split_join hcolon, if_neg (by simp)]
    exact mapM_readBack hexByte?_hexDigits _

theorem quote_of_plain {s : String} (h : ∀ c ∈ s.toList, escape c = [c]) :
    quote s = "\"" ++ s ++ "\"" := by
  have hself : s.toList.flatMap escape = s.toList := by
    rw [List.flatMap_congr h]
    exact List.flatMap_singleton' _
  apply String.toList_injective
  rw [toList_quote, hself]
  simp

theorem quote_colonBytes (bs : List UInt8) :
    quote (String.ofList (colonBytes bs)) = "\"" ++ String.ofList (colonBytes bs) ++ "\"" := by
  apply quote_of_plain
  rw [String.toList_ofList]
  refine forall_mem_join (List.forall_mem_singleton.mpr rfl) (List.forall_mem_map.mpr fun b _ => ?_)
  exact forall_mem_hexDigits (by decide) b

end Text

/-! ## How a payload is shown -/

theorem Kind.payload_slot : ∀ k ∈ registered, ∀ f ∈ k.fields, f.type = .payload →
    f.slot ∈ k.layout ∧ ∀ slot ∈ k.layout, slot.source = f.name → slot = f.slot := by
  decide

namespace Event

theorem colonHex_bytes (bs : List UInt8) :
    colonHex (.bytes bs) = .ok (.text (String.ofList (Text.colonBytes bs))) := by
  have hparts : (bs.map fun b => Value.int b.toNat).mapM hexPart =
      .ok (bs.map fun b => Text.hexDigits 2 b.toNat) := by
    rw [mapM_ok, List.map_map, List.map_map]
    rfl
  exact bind_ok.mpr ⟨_, rfl, bind_ok.mpr ⟨_, hparts, rfl⟩⟩

theorem shownText_payload {f : Field} (hf : f.type = .payload) (s : String) :
    ∃ text, shownText f (.bytes (Utf8.encode s)) = .ok text ∧
      (f.shown = .plain ∧ text = (Value.text s).rendered ∨
        f.shown = .colonHex ∧ ∃ inner, text = "\"" ++ inner ++ "\"" ∧
          Text.hexBytes? inner.toList = some (Utf8.encode s)) := by
  rw [shownText_ordinary (by rw [hf]; rfl)]
  have hshown : f.shown = .plain ∨ f.shown = .colonHex := by
    unfold Field.shown
    rw [hf]
    dsimp only
    split
    · exact .inr rfl
    · exact .inl rfl
  rcases hshown with hplain | hhex
  · refine ⟨_, by rw [hplain]; rfl, .inl ⟨hplain, ?_⟩⟩
    rw [Value.rendered, Value.rendered, Utf8.decodeLossy_encode]
  · let inner := String.ofList (Text.colonBytes (Utf8.encode s))
    refine ⟨_, by rw [hhex, shownValue, colonHex_bytes]; rfl, .inr ⟨hhex, inner, ?_, ?_⟩⟩
    · exact Text.quote_colonBytes (Utf8.encode s)
    · rw [String.toList_ofList, Text.hexBytes?_colonBytes]

theorem exists_shown_payload {e : Event} (h : e.Loaded) {f : Field} (hmem : f ∈ e.kind.fields)
    (hf : f.type = .payload) {s : String} (hget : e.get f.name = .bytes (Utf8.encode s)) :
    ∃ ps, e.pairs = .ok ps ∧ ∃ text, (f.label, text) ∈ ps ∧
      (f.shown = .plain ∧ text = (Value.text s).rendered ∨
        f.shown = .colonHex ∧ ∃ inner, text = "\"" ++ inner ++ "\"" ∧
          Text.hexBytes? inner.toList = some (Utf8.encode s)) := by
  obtain ⟨text, htext, hpairs⟩ := exists_texts h
  have hshown : f ∈ e.kind.shownFields := by
    refine (Kind.mem_fields_iff.mp hmem).resolve_left ?_
    rintro rfl
    cases hf
  obtain ⟨t, ht, hform⟩ := shownText_payload hf s
  have heq := htext f hshown
  rw [hget, ht] at heq
  cases heq
  exact ⟨_, hpairs, text f, List.mem_map.mpr ⟨f, hshown, rfl⟩, hform⟩

section Payload

variable {k : Kind} {f : Field} (r : OpenRecord k f) (hf : f.type = .payload) {v : Value}
  {s : String} {e : Event}

include hf

theorem get_payload (hv : v.isDocument = true)
    (hcheck : Record.check .payload v = .ok (.bytes (Utf8.encode s)))
    (h : ofRecord (.dict (r.fill v)) = .ok e) : e.get f.name = .bytes (Utf8.encode s) := by
  obtain rfl := r.kind_of_ofRecord hv h
  have hholds := holds_of_ofRecord (r.isDocument_fill hv) h r.declared
  rw [r.supplied?_fill (by rw [hf]; nofun) hv] at hholds
  obtain ⟨x, hx, hsettle⟩ := hholds
  rw [hf, hcheck] at hx
  cases hx
  have hself := settled_of_ne (f := f) (v := .bytes (Utf8.encode s)) (by rw [hf]; nofun) nofun nofun
  exact (Except.ok.inj (hself.symm.trans hsettle)).symm

theorem ofRecord_payload {w : Value} (hv : v.isDocument = true)
    (hcheck : Record.check .payload v = .ok (.bytes (Utf8.encode s)))
    (hcheck' : Record.check .payload w = .ok (.bytes (Utf8.encode s)))
    (hw : FieldType.Replaces .payload 1 w v) (h : ofRecord (.dict (r.fill v)) = .ok e) :
    ofRecord (.dict (r.fill w)) = .ok e := by
  have hdocument' := hw.document hv
  obtain ⟨e', h', hkind, -⟩ :=
    exists_ofRecord_fill r (by rw [hf]; nofun) hv (by rw [hf]; exact hw) h
  suffices hsame : e' = e by rwa [hsame] at h'
  refine eq_of_get (loaded_of_ofRecord h).registered hkind fun g hg => ?_
  by_cases hname : g.name = f.name
  · rw [hname, get_payload r hf hv hcheck h, get_payload r hf hdocument' hcheck' h']
  · refine get_of_change (r.isDocument_fill hv) (r.isDocument_fill hdocument') h h' hkind hg ?_
    obtain rfl := r.kind_of_ofRecord hv h
    rw [r.stands]
    exact fun heq => hname (Option.some.inj heq).symm

end Payload

/-- A record loads to one event whether it gives a payload as text or as the bytes of the text, and
the event has these bytes. It shows them as the text, or as hexadecimal numbers from which the bytes
can be read. -/
theorem payload_spellings {k : Kind} {f : Field} (r : OpenRecord k f) (hf : f.type = .payload)
    (s : String) :
    (∀ e, ofRecord (.dict (r.fill (.text s))) = .ok e ↔
      ofRecord (.dict (r.fill (.ofBytes (Utf8.encode s)))) = .ok e) ∧
    ∀ e, ofRecord (.dict (r.fill (.text s))) = .ok e → e.get f.name = .bytes (Utf8.encode s) ∧
      (∃ slot ∈ k.layout, slot.source = f.name) ∧
      ∃ ps, e.pairs = .ok ps ∧ ∀ slot ∈ k.layout, slot.source = f.name →
        ∃ text, (slot.label, text) ∈ ps ∧
          (slot.shown = .plain ∧ text = (Value.text s).rendered ∨
            slot.shown = .colonHex ∧ ∃ inner, text = "\"" ++ inner ++ "\"" ∧
              Text.hexBytes? inner.toList = some (Utf8.encode s)) := by
  have htext : Record.check .payload (.text s) = .ok (.bytes (Utf8.encode s)) := rfl
  have hbytes : Record.check .payload (.ofBytes (Utf8.encode s)) = .ok (.bytes (Utf8.encode s)) :=
    Record.wired_ok.mpr (Wire.byteList_ofBytes _)
  obtain ⟨hgives, hgives'⟩ := FieldType.Replaces.payload (show 1 < 200 by decide) s
  refine ⟨fun e => ⟨ofRecord_payload r hf rfl htext hbytes hgives,
    ofRecord_payload r hf (hgives.document rfl) hbytes htext hgives'⟩, fun e h => ?_⟩
  have hget := get_payload r hf rfl htext h
  obtain ⟨hslot, hone⟩ := Kind.payload_slot k r.registered f r.declared hf
  have hmem : f ∈ e.kind.fields := r.kind_of_ofRecord rfl h ▸ r.declared
  obtain ⟨ps, hpairs, hshown⟩ := exists_shown_payload (loaded_of_ofRecord h) hmem hf hget
  refine ⟨hget, ⟨f.slot, hslot, rfl⟩, ps, hpairs, fun slot hmem hsource => ?_⟩
  rw [hone slot hmem hsource]
  exact hshown

def openLease : OpenRecord .blocklistDhcp (.payload "client_id") where
  before := [(.text "kind", .text "BlocklistDhcp"), (.text "time", .int 0),
    (.text "sensor", .text "s"), (.text "proto", .int 17), (.text "confidence", .int 1)]
  key := .text "client_id"
  after := [(.text "orig_addr", .text "10.0.0.1"), (.text "resp_addr", .text "10.0.0.2"),
    (.text "start_time", .int 0)]
  declared := List.mem_of_getElem? (show Kind.blocklistDhcp.fields[35]? = _ from rfl)
  stands := rfl
  documents := by decide
  names := ⟨_, rfl, rfl⟩

theorem payload_spellings_lease :
    (Field.payload "client_id").type = .payload ∧
      ∃ e, ofRecord (.dict (openLease.fill (.text "é"))) = .ok e ∧
        ofRecord (.dict (openLease.fill (.ofBytes (Utf8.encode "é")))) = .ok e ∧
        e.get "client_id" = .bytes [0xC3, 0xA9] := by
  obtain ⟨e, he⟩ := exists_of_isSome
    (show (ofRecord (.dict (openLease.fill (.text "é")))).toOption.isSome = true by decide +kernel)
  obtain ⟨hloads, hshown⟩ := payload_spellings openLease rfl "é"
  have hbytes : Utf8.encode "é" = [0xC3, 0xA9] := by decide +kernel
  refine ⟨rfl, e, he, (hloads e).mp he, ?_⟩
  rw [← hbytes]
  exact (hshown e he).1

end Event

end Detection
