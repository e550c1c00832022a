import PromptWeave.Json.Record

/-!
# Settings of a prompt

Two settings are known. All others are kept as they are for hooks that know them.
-/
namespace PromptWeave.Prompt

/-- The settings of a request. -/
structure Settings where
  autoFitResolution : Bool
  wildcardStandalone : Bool
  others : Dictionary Json.Value

namespace Settings

/-- The settings of a request that sets nothing. -/
def initial : Settings := ⟨false, false, .empty⟩

instance : Inhabited Settings := ⟨initial⟩

/-- The name of the setting that fits the resolution. -/
def autoFitKey : String := "auto_fit_resolution"

/-- The name of the setting by which wildcards stand alone. -/
def standaloneKey : String := "wildcard_standalone"

/-- What has been read of settings: each known setting at most once. -/
structure Draft where
  autoFit : Option Bool
  standalone : Option Bool
  others : Dictionary Json.Value

/-- Reads one field. -/
def addField? (levels : Nat) (draft : Draft) (key : Option String) (t : Json.Tree) : Option Draft := do
  let key ← key
  if key == autoFitKey then
    if draft.autoFit.isSome then none
    return { draft with autoFit := some (← Json.decodeBool levels t) }
  else if key == standaloneKey then
    if draft.standalone.isSome then none
    return { draft with standalone := some (← Json.decodeBool levels t) }
  else return { draft with others := draft.others.insert key (← Json.decodeValue levels t) }

/-- Reads settings. They are an object; of the settings that are not known the last with a name
counts. -/
def decode : Json.Decoder Settings := fun levels => fun
  | .object fields =>
      if levels = 0 then none
      else do
        let draft ← fields.foldlM (fun draft (key, t) => addField? (levels - 1) draft key t)
          (Draft.mk none none .empty)
        return ⟨draft.autoFit.getD false, draft.standalone.getD false, draft.others⟩
  | _ => none

/-- Settings as a value. -/
def toJson (s : Settings) : Json.Value :=
  .object ([(autoFitKey, .bool s.autoFitResolution), (standaloneKey, .bool s.wildcardStandalone)]
    ++ s.others.toList)

end Settings
end PromptWeave.Prompt
