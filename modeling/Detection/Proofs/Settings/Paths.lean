import Detection.Proofs.Mapping.Overlay
import Detection.Proofs.Settings.InForce
import Detection.Proofs.Text.Split
import Detection.Proofs.Yaml.Keyed

/-! # Settings at dotted paths

Settings are read by the names of a path, one below the other. What is read of settings that are laid
over others is what the paths of the two say.
-/

namespace Detection.Settings

open Mapping (reach? merge get? record)

variable {names : List String}

/-! ## Paths of names -/

theorem at?_eq_reach? (v : Value) (names : List String) :
    Mapping.at? v names = reach? v (names.map .text) := by
  induction names generalizing v with
  | nil => rfl
  | cons name rest ih =>
    cases v with
    | dict m =>
      rw [List.map_cons, Mapping.reach?_dict, Mapping.at?]
      simp only [ih]
    | _ => rfl

theorem names_joinTexts (hne : names ≠ []) (hdots : ∀ n ∈ names, '.' ∉ n.toList) :
    Settings.names (Text.joinTexts "." names) = names := by
  have hchars : ∀ p ∈ names.map String.toList, '.' ∉ p := by simpa using hdots
  have hsplit := Text.split_join hchars
  rw [if_neg (by simpa using hne)] at hsplit
  unfold Settings.names Text.joinTexts
  rw [String.toList_ofList]
  simpa using congrArg (List.map String.ofList) hsplit

theorem get_joinTexts (s : Settings) (default : Value) (hne : names ≠ [])
    (hdots : ∀ n ∈ names, '.' ∉ n.toList) :
    s.get (Text.joinTexts "." names) default =
      (reach? (.dict s.values) (names.map .text)).getD default := by
  unfold Settings.get
  rw [names_joinTexts hne hdots, at?_eq_reach?]

/-! ## Settings laid over others -/

/-- The mappings that are read have one entry for a key. -/
def Keyed (reader : DocumentReader) : Prop :=
  ∀ name text v, reader name text = .ok v → v.isKeyed = true

theorem keyed_reader : Keyed Yaml.reader := by
  intro name text v h
  exact Yaml.isKeyed_read (mapError_ok.mp h)

theorem Supplies.areKeyed {reader : DocumentReader} {files : Files} {origin : Origin}
    {m : Mapping} {source : Option String} (hreader : Keyed reader)
    (h : Supplies reader files origin m source) : Value.areKeyed m = true := by
  have hholds {p : Path} (h : Holds reader files p m) : Value.areKeyed m = true := by
    obtain ⟨text, v, -, hread, hm⟩ := h
    have hkeyed := hreader _ _ _ hread
    unfold mappingOf? at hm
    split at hm
    · rwa [← Option.some.inj hm]
    · split at hm
      · cases hm
      · cases hm
        rfl
  cases h with
  | absent _ => rfl
  | usual _ h => exact hholds h
  | named _ _ h => exact hholds h

/-- The upper mapping has one entry for a key, as all have that files supply. At each path, what it
holds there prevails if it is no mapping, and hides all below it. Where the upper one has nothing
and no such value on the way, the lower one shows. Of two mappings the keys are joined; a mapping
over anything else stands as it is. So an empty mapping changes nothing, and a second time the same
one changes nothing either. Settings give at a dotted path what is held there, and the default where
nothing is. -/
theorem merge_paths {base above : Mapping} (h : Value.areKeyed above = true) :
    (∀ p w, reach? (.dict above) p = some w → w.isMapping = false →
      reach? (.dict (merge base above)) p = some w) ∧
    (∀ p, reach? (.dict above) p = none →
      (∀ q w, q <+: p → reach? (.dict above) q = some w → w.isMapping = true) →
      reach? (.dict (merge base above)) p = reach? (.dict base) p) ∧
    (∀ p w key rest, reach? (.dict above) p = some w → w.isMapping = false →
      reach? (.dict (merge base above)) (p ++ key :: rest) = none) ∧
    (∀ p upper, reach? (.dict above) p = some (.dict upper) →
      (∀ lower, reach? (.dict base) p = some (.dict lower) →
        ∃ both, reach? (.dict (merge base above)) p = some (.dict both) ∧
          ∀ key, (get? both key).isSome = ((get? lower key).isSome || (get? upper key).isSome)) ∧
      ((∀ lower, reach? (.dict base) p ≠ some (.dict lower)) →
        reach? (.dict (merge base above)) p = some (.dict upper))) ∧
    merge base [] = base ∧
    merge (merge base above) above = merge base above ∧
    ∀ source names default, names ≠ [] → (∀ n ∈ names, '.' ∉ n.toList) →
      Settings.get ⟨merge base above, source⟩ (Text.joinTexts "." names) default =
        (reach? (.dict (merge base above)) (names.map .text)).getD default := by
  have hkeyed : (Value.dict above).isKeyed = true := h
  -- where the upper mapping holds a value, it is laid over what is below
  have hover {p : List Value} {w : Value} (hw : reach? (.dict above) p = some w) :
      reach? (.dict (merge base above)) p =
        some (Mapping.overlay (reach? (.dict base) p) w) := by
    rw [← Mapping.overlay_dict, Mapping.reach?_overlay hkeyed hw]
    rfl
  refine ⟨?_, ?_, ?_, ?_, ?_, Mapping.merge_again h base, ?_⟩
  · intro p w hw hmapping
    rw [hover hw, Mapping.overlay_of_not_mapping hmapping]
  · intro p hnone hmappings
    rw [← Mapping.overlay_dict, Mapping.reach?_overlay_none hkeyed hnone hmappings]
    rfl
  · intro p w key rest hw hmapping
    rw [← Mapping.overlay_dict]
    exact Mapping.reach?_overlay_below hkeyed hw hmapping key rest
  · intro p upper hupper
    have hkeys : Value.areKeyed upper = true := Mapping.isKeyed_of_reach? hkeyed hupper
    constructor
    · intro lower hlower
      refine ⟨merge lower upper, ?_, Mapping.isSome_get?_merge hkeys⟩
      rw [hover hupper, hlower, Mapping.overlay_dict]
    · intro hlower
      rw [hover hupper, Mapping.overlay_of_forall_ne hlower]
  · rw [merge]
  · intro source names default hne hdots
    exact get_joinTexts ⟨merge base above, source⟩ default hne hdots

def plainSettings : Mapping :=
  [(.text "syslog", record [("app_name", .text "ids"), ("severity_by_level", .none)]),
    (.text "display", .text "plain")]

/-- A value that is taken back is no absent one, and a text hides the colour that was below. -/
theorem merge_paths_plain :
    let s : Settings := ⟨merge defaults plainSettings, none⟩
    Value.areKeyed plainSettings = true ∧
      s.get "syslog.app_name" .none = .text "ids" ∧
      s.get "syslog.severity_by_level" (.text "low") = .none ∧
      s.get "logging.level" .none = .text "INFO" ∧
      s.get "display.color" (.text "default") = .text "default" ∧
      (∃ both, reach? (.dict s.values) [.text "syslog"] = some (.dict both) ∧
        get? both (.text "facility") ≠ none ∧ get? both (.text "app_name") ≠ none) ∧
      merge s.values plainSettings = s.values := by
  intro s
  have hkeyed : Value.areKeyed plainSettings = true := by decide
  obtain ⟨hover, hunder, hbelow, hboth, -, hagain, hget⟩ := @merge_paths defaults plainSettings hkeyed
  have happ : reach? (.dict s.values) [.text "syslog", .text "app_name"] = some (.text "ids") :=
    hover _ _ rfl rfl
  have hback : reach? (.dict s.values) [.text "syslog", .text "severity_by_level"] = some .none :=
    hover _ _ rfl rfl
  have hlevel : reach? (.dict s.values) [.text "logging", .text "level"] = some (.text "INFO") := by
    refine hunder _ rfl fun q w hq hw => ?_
    rcases List.prefix_cons_iff.mp hq with rfl | ⟨q, rfl, -⟩
    · cases hw
      rfl
    · cases hw
  have hcolor : reach? (.dict s.values) [.text "display", .text "color"] = none :=
    hbelow [.text "display"] _ (.text "color") [] rfl rfl
  have hreads {held : Option Value} (names : List String) (default : Value) (hne : names ≠ [])
      (hdots : ∀ n ∈ names, '.' ∉ n.toList)
      (h : reach? (.dict s.values) (names.map .text) = held) :
      s.get (Text.joinTexts "." names) default = held.getD default := by
    rw [← h]
    exact hget none names default hne hdots
  obtain ⟨both, hreach, hkeys⟩ := (hboth [.text "syslog"] _ rfl).1 _ rfl
  refine ⟨hkeyed, ?_, ?_, ?_, ?_, ⟨both, hreach, ?_, ?_⟩, hagain⟩
  · exact hreads ["syslog", "app_name"] .none (by decide) (by decide) happ
  · exact hreads ["syslog", "severity_by_level"] (.text "low") (by decide) (by decide) hback
  · exact hreads ["logging", "level"] .none (by decide) (by decide) hlevel
  · exact hreads ["display", "color"] (.text "default") (by decide) (by decide) hcolor
  · rw [← Option.isSome_iff_ne_none, hkeys]
    rfl
  · rw [← Option.isSome_iff_ne_none, hkeys]
    rfl

end Detection.Settings
