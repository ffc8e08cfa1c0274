import PageManifest.Proofs.Showing
import PageManifest.Proofs.Checks

/-! # Commands do not go by how output is shown

Commands say what there is to write and leave it to the console how it is shown.  So
with another console, or another log, a command does the same and ends in the same way.
-/

namespace PageManifest.Command

variable {α : Type}

theorem blind_say (message : Terminal.Message) :
    Blind (say message : Act (StateM Machine) Unit).run :=
  .run_lift (PageManifest.blind_say message)

theorem blind_tell (document : Path) (message : String) (color : Option Terminal.Color) :
    Blind (tell document message color : Act (StateM Machine) Unit).run :=
  blind_say _

theorem blind_reporting {operation : Run (StateM Machine) α} (h : Blind operation.run)
    (document : Option Path) : Blind (reporting document operation : Act (StateM Machine) α).run :=
  h.map _

theorem blind_sayPage (call : Call) : Blind (sayPage call : Act (StateM Machine) Unit).run :=
  blind_say _

/-! ## Checking a command line -/

section Checks

variable (call : Call) (line : Line)

theorem blind_checkValue (label : String) (takes : Takes) (value : String) :
    Blind (checkValue call label takes value : Act (StateM Machine) Unit).run := by
  unfold checkValue
  cases takes with
  | nothing => exact .run_pure _
  | text => exact .run_pure _
  | choice names =>
      dsimp only
      split
      · exact .run_throw _
      · exact .run_pure _
  | file =>
      dsimp only
      split
      · refine (Blind.run_lift (blind_status _)).run_bind fun answer => ?_
        split
        · exact .run_throw _
        · exact .run_pure _
        · exact .run_pure _
        · exact .run_throw _
      · exact .run_pure _

theorem blind_checkGiven : Blind (checkGiven call line : Act (StateM Machine) Unit).run :=
  .run_forM fun _ _ => blind_checkValue call _ _ _

theorem blind_checkOperand : Blind (checkOperand call line : Act (StateM Machine) Unit).run := by
  unfold checkOperand
  split
  · exact .run_pure _
  · split
    · exact .run_throw _
    · exact blind_checkValue call _ _ _

theorem blind_checkRequired : Blind (checkRequired call line : Act (StateM Machine) Unit).run := by
  refine .run_forM fun s _ => ?_
  split
  · exact .run_throw _
  · exact .run_pure _

theorem blind_checkExtra : Blind (checkExtra call line : Act (StateM Machine) Unit).run := by
  unfold checkExtra
  split
  · exact .run_pure _
  · exact .run_throw _

theorem blind_checking : Blind (checking call line).run :=
  (blind_checkGiven call line).run_bind fun _ => (blind_checkOperand call line).run_bind fun _ =>
    (blind_checkRequired call line).run_bind fun _ => blind_checkExtra call line

end Checks

/-! ## Performing a request -/

section Commands

variable (c : Config) (document : Path)

theorem blind_backendFor : Blind (backendFor c document : Act (StateM Machine) Backend).run :=
  (blind_reporting (Files.blind_value _) _).run_bind fun _ => .run_pure _

theorem blind_tellVersion (detailed json : Bool) :
    Blind (tellVersion detailed json : Act (StateM Machine) Status).run := by
  unfold tellVersion
  cases json with
  | true => exact (blind_say _).run_bind fun _ => .run_pure _
  | false =>
      cases detailed with
      | true => exact (blind_say _).run_bind fun _ => (blind_say _).run_bind fun _ => .run_pure _
      | false => exact (blind_say _).run_bind fun _ => .run_pure _

theorem blind_act {x : LastStep α} (h : Blind x.change.run) (apply needed : Bool) :
    Blind (x.act apply needed).run := by
  unfold LastStep.act
  split
  · exact (blind_tell _ _ _).run_bind fun _ => .run_pure _
  · split
    · exact (blind_tell _ _ _).run_bind fun _ => .run_pure _
    · exact (blind_reporting h _).run_bind fun _ => (blind_tell _ _ _).run_bind fun _ => .run_pure _

theorem blind_preview (diff : Bool) (before after : Text) :
    Blind (preview document diff before after).run := by
  cases diff with
  | false => exact .run_pure _
  | true => exact blind_say _

theorem blind_payloadFrom (manifest : Path) : Blind (payloadFrom manifest).run := by
  refine (blind_reporting (Files.blind_read manifest) _).run_bind fun payload => ?_
  unfold unlessEmpty
  split
  · exact .run_throw _
  · exact .run_pure _

/-- Shows the regions of a document, and their digest. -/
def showRegions (json : Bool) (found : List Region) (sum : Option String) :
    Act (StateM Machine) Status := do
  if json then
    say (.ofLine (Json.record ([("path", .text document.toString.toList),
      ("strategy", .text c.strategy.name.toList), ("regions", .list (found.map regionRecord))] ++
        sum.toList.map fun sum => ("sha256", .text sum.toList))).indented)
  else do
    found.forM fun r => say (regionLine r)
    sum.toList.forM fun sum => say (.ofLine ("sha256: " ++ sum).toList)
  pure .success

variable [Platform]

theorem blind_documentText : Blind (documentText c document : Act (StateM Machine) Text).run :=
  blind_reporting ((Files.blind_read document).run_bind fun _ => Files.blind_value _) _

theorem blind_read (output : Option Path) :
    Blind (read c document output : Act (StateM Machine) Status).run := by
  refine (blind_backendFor c document).run_bind fun b =>
    (blind_reporting (b.blind_readAt document) _).run_bind fun payload => ?_
  cases output with
  | none => exact (blind_say _).run_bind fun _ => .run_pure _
  | some output =>
      exact (blind_reporting (Files.blind_replace _ output payload) _).run_bind fun _ =>
        (blind_tell _ _ _).run_bind fun _ => .run_pure _

theorem blind_embed (manifest : Path) (apply diff : Bool) :
    Blind (embed c document manifest apply diff : Act (StateM Machine) Status).run := by
  have hsurvey : Blind (surveyEmbed c document manifest diff).run :=
    (blind_backendFor c document).run_bind fun b =>
      (blind_payloadFrom manifest).run_bind fun payload =>
        (blind_documentText c document).run_bind fun before =>
          (blind_reporting (b.blind_update before document payload) _).run_bind fun after =>
            (blind_reporting (b.blind_wouldChange document payload) _).run_bind fun _ =>
              (blind_preview document diff before after).run_bind fun _ => .run_pure _
  rw [embed_eq]
  exact hsurvey.run_bind fun found => blind_act (Backend.blind_saveAt _ document found.1) _ _

theorem blind_strip (apply diff : Bool) :
    Blind (strip c document apply diff : Act (StateM Machine) Status).run := by
  have hpreview : ∀ diff, Blind (previewStripped c document diff).run := by
    intro diff
    cases diff with
    | false => exact .run_pure _
    | true =>
        exact (blind_documentText c document).run_bind fun before =>
          blind_preview document true before _
  have hsurvey : Blind (surveyStrip c document diff).run :=
    (blind_backendFor c document).run_bind fun b =>
      (blind_reporting (b.blind_hasManifest document) _).run_bind fun _ =>
        (hpreview _).run_bind fun _ => .run_pure _
  rw [strip_eq]
  exact hsurvey.run_bind fun _ => blind_act (Backend.blind_removeAt _ document) _ _

theorem blind_digestOf (found : List Region) :
    Blind (digestOf c document found : Act (StateM Machine) String).run :=
  (blind_documentText c document).run_bind fun _ =>
    blind_reporting ((Files.blind_value _).run_bind fun _ =>
      (Files.blind_noteAll _).run_bind fun _ =>
        (Files.blind_value _).run_bind fun _ => Files.blind_value _) _

/-- The digest of a document, if it is asked for. -/
def sumOf (digest : Bool) (found : List Region) : Act (StateM Machine) (Option String) :=
  if digest && c.strategy ≠ .inline then
    throw (.error ⟨.unsupported, "--digest is only available for the inline strategy"⟩)
  else if digest then some <$> digestOf c document found
  else pure none

theorem regions_eq (json digest : Bool) :
    regions c document json digest = backendFor c document >>= fun b =>
      reporting (some document) (b.hashRegionsAt document) >>= fun found =>
        sumOf c document digest found >>= showRegions c document json found := by
  refine bind_congr fun b => bind_congr fun found => ?_
  unfold sumOf
  cases digest with
  | false => rfl
  | true =>
      cases hstrategy : c.strategy with
      | inline => cases json <;> simp [showRegions, hstrategy]
      | sidecar => rfl

theorem blind_regions (json digest : Bool) :
    Blind (regions c document json digest : Act (StateM Machine) Status).run := by
  have hsum : ∀ found, Blind (sumOf c document digest found).run := by
    intro found
    unfold sumOf
    split
    · exact .run_throw _
    · split
      · exact (blind_digestOf c document found).run_bind fun _ => .run_pure _
      · exact .run_pure _
  have hshow : ∀ found sum, Blind (showRegions c document json found sum).run := by
    intro found sum
    cases json with
    | true => exact (blind_say _).run_bind fun _ => .run_pure _
    | false =>
        exact (Blind.run_forM fun _ _ => blind_say _).run_bind fun _ =>
          (Blind.run_forM fun _ _ => blind_say _).run_bind fun _ => .run_pure _
  rw [regions_eq]
  exact (blind_backendFor c document).run_bind fun b =>
    (blind_reporting (b.blind_hashRegionsAt document) _).run_bind fun found =>
      (hsum found).run_bind (hshow found)

theorem blind_perform (detailed : Bool) (request : Request) :
    Blind (perform c detailed request : Act (StateM Machine) Status).run := by
  cases request with
  | config => exact (blind_say _).run_bind fun _ => .run_pure _
  | version json => exact blind_tellVersion detailed json
  | read document output => exact blind_read c document output
  | embed document manifest apply diff => exact blind_embed c document manifest apply diff
  | strip document apply diff => exact blind_strip c document apply diff
  | regions document json digest => exact blind_regions c document json digest

theorem blind_runVerb (verb : Verb) (call : Call) (detailed : Bool) (words : List String) :
    Blind (runVerb verb call c detailed words : Act (StateM Machine) Status).run := by
  cases hread : Line.read call.manual.switches true words with
  | error fault =>
      unfold runVerb readLine
      rw [hread]
      exact .run_throw _
  | ok line =>
      rw [runVerb_eq verb c detailed hread]
      split
      · exact (blind_sayPage call).run_bind fun _ => .run_pure _
      · exact (blind_checking call line).run_bind fun _ => blind_perform c detailed _

end Commands

end PageManifest.Command
