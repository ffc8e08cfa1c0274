import PageManifest.Proofs.Coding
import PageManifest.Proofs.Links

/-! # The reference of a document leads to its companion file

The companion file is named after the document, and its name is what the reference
carries.  Read back, unescaped and seen from the directory of the document, it
means the companion file again, unless the name of the document begins with a
blank or like the address of inline data.
-/

namespace PageManifest

namespace Sidecar

open Markup

theorem usable?_insertReference (t target : Text) :
    ReferenceScan.usable? (insertReference t target) =
      if Text.trim target = [] then none
      else some (⟨front t, referenceTag target, back t⟩, ⟨referenceLead, escape target⟩) := by
  simp only [ReferenceScan.usable?, referenceIn?_insertReference, href?_referenceTag,
    trim_escape, List.isEmpty_iff, escape_eq_nil_iff]

/-- Where the value of the reference stands in a document. -/
theorem insertReference_cut (t target : Text) : insertReference t target =
    front t ++ referenceLead ++ (escape target ++ ("\">".toList ++ back t)) := by
  rw [insertReference_eq, referenceTag_eq]
  simp only [List.append_assoc]

/-- The value of the reference to a target can be marked. -/
def MarksReference (charset : Charset) (t target : Text) : Prop :=
  charset.Marks (front t ++ referenceLead) (escape target)

theorem marksReference_codec {k : Charset.Codec} {t target : Text}
    (hk : k.Encodes (insertReference t target)) : MarksReference (.codec k) t target := by
  rw [insertReference_cut, ← List.append_assoc] at hk
  exact Charset.marks_codec (Charset.Codec.encodes_append_iff.mp hk).1

/-- A reference that is there already stands where it would be put. -/
theorem marksReference_insertReference_iff (charset : Charset) (t first target : Text) :
    MarksReference charset (insertReference t first) target ↔ MarksReference charset t target := by
  rw [MarksReference, front_insertReference, ← MarksReference]

/-- The scan of a document with its reference goes by the mark of the value. -/
theorem ofText_insertReference_of_span {charset : Charset} {t target : Text}
    {r : Except Charset.Fault Marker} (hblank : Text.trim target ≠ [])
    (hspan : Marker.ofSpan .linkTag charset (insertReference t target)
      (front t ++ referenceLead).length ((front t ++ referenceLead).length +
        (escape target).length) = r) :
    ReferenceScan.ofText charset (insertReference t target) =
      (r.mapError .charset).map fun marker => some ⟨Text.trim target, marker⟩ := by
  have husable := usable?_insertReference t target
  rw [if_neg hblank] at husable
  rw [List.length_append] at hspan
  unfold ReferenceScan.ofText
  simp only [husable]
  rw [hspan]
  cases r with
  | error fault => rfl
  | ok marker =>
      simp only [trim_escape, unescape_escape]
      rfl

/-- The target that was inserted is reported without the blanks at its ends, if anything is left. -/
theorem ofText_insertReference {k : Charset.Codec} {t target : Text}
    (hk : k.Encodes (insertReference t target)) :
    ReferenceScan.ofText (.codec k) (insertReference t target) =
      .ok (if Text.trim target = [] then none
        else some ⟨Text.trim target,
          ⟨.linkTag, (k.mark ++ k.body (front t ++ referenceLead)).length,
            (k.body (escape target)).length⟩⟩) := by
  by_cases hblank : Text.trim target = []
  · have husable := usable?_insertReference t target
    rw [if_pos hblank] at husable ⊢
    rw [ReferenceScan.ofText, husable]
  · have hcut := insertReference_cut t target
    obtain ⟨hlead, hrest⟩ := Charset.Codec.encodes_append_iff.mp (hcut ▸ hk)
    have hvalue := (Charset.Codec.encodes_append_iff.mp hrest).1
    have hspan := Marker.ofSpan_append hlead hvalue .linkTag ("\">".toList ++ back t)
    rw [← hcut] at hspan
    rw [if_neg hblank, ofText_insertReference_of_span hblank hspan]
    rfl

/-- What may be written into a reference for the name of a document to be read back from it. -/
structure Linkable (name : Text) : Prop where
  noLeadingBlank : Text.trimStart name = name
  notData : ¬ "data:".toList <+: name
  noSlash : '/' ∉ name

def suffixed (name : Text) : Text :=
  name ++ companionSuffix.toList

theorem trim_suffixed (name : Text) :
    Text.trim (suffixed name) = suffixed (Text.trimStart name) := by
  have hsuffix : companionSuffix.toList = '.' :: ("c2p".toList ++ ['a']) := rfl
  rw [suffixed, suffixed, hsuffix]
  exact Text.trim_append_of_ends rfl rfl name _

theorem suffixed_ne_nil (name : Text) : suffixed name ≠ [] := by
  rw [suffixed, ne_eq, List.append_eq_nil_iff, not_and]
  exact fun _ => by decide

theorem slash_not_mem_suffixed {name : Text} (h : '/' ∉ name) : '/' ∉ suffixed name := by
  rw [suffixed, List.mem_append, not_or]
  exact ⟨h, by decide⟩

/-- A name without a slash is taken for an address only if it begins like inline data. -/
theorem isRemote_suffixed_iff {name : Text} (h : '/' ∉ name) :
    isRemote (suffixed name) = true ↔ "data:".toList <+: name := by
  have hscheme : Text.hasInfix "://".toList (suffixed name) = false := by
    rw [Bool.eq_false_iff]
    intro hinfix
    exact slash_not_mem_suffixed h ((Text.hasInfix_iff.mp hinfix).subset (by decide))
  rw [isRemote, hscheme, Bool.false_or, Text.isSome_afterExact_iff]
  constructor
  · rintro ⟨rest, hrest⟩
    rcases List.append_eq_append_iff.mp hrest with ⟨z, hz, -⟩ | ⟨z, hz, hsuffix⟩
    · exact ⟨z, hz.symm⟩
    · cases z with
      | nil => exact ⟨[], by rw [hz]; simp⟩
      | cons c z =>
          have hdot : c = '.' := by
            have hhead := congrArg List.head? hsuffix
            simpa [companionSuffix] using hhead.symm
          have hmem : '.' ∈ "data:".toList := by
            rw [hz, hdot]
            simp
          exact absurd hmem (by decide)
  · intro hdata
    exact hdata.trans (List.prefix_append name _)

end Sidecar

namespace Path

theorem splitAll_of_not_mem {sep : Char} {t : Text} (h : sep ∉ t) : splitAll sep t = [t] := by
  induction t with
  | nil => rfl
  | cons c t ih =>
      rw [List.mem_cons, not_or] at h
      rw [splitAll, if_neg (Ne.symm h.1), ih h.2]

theorem isName_of_length {t : Text} (h : 1 < t.length) : isName t = true := by
  rcases t with _ | ⟨c, _ | ⟨d, t⟩⟩
  · simp at h
  · simp at h
  · simp [isName]

theorem ofText_of_isName {t : Text} (hslash : '/' ∉ t) (hname : isName t = true) :
    ofText t = ⟨.none, [String.ofList t]⟩ := by
  have hroot : rootOf t = .none := by
    cases t with
    | nil => rfl
    | cons c t =>
        have hc : c ≠ '/' := fun h => hslash (by simp [h])
        simp [rootOf, hc]
  rw [ofText, hroot, splitAll_of_not_mem hslash]
  simp [hname]

end Path

namespace Sidecar

open Markup

/-- A companion file stands beside its document and is named after it. -/
theorem companion_eq_ok_iff {document target : Path} : companion document = .ok target ↔
    document.name ≠ "" ∧
      target = ⟨document.root, document.parts.dropLast ++ [document.name ++ companionSuffix]⟩ := by
  unfold companion Path.withName?
  by_cases hname : document.name = ""
  · simp [hname]
  · simp only [hname, if_false, Except.ok.injEq, ne_eq, not_false_eq_true, true_and]
    exact eq_comm

theorem parts_ne_nil_of_companion {document target : Path} (h : companion document = .ok target) :
    document.parts ≠ [] := by
  intro hnone
  have hname := (companion_eq_ok_iff.mp h).1
  rw [Path.name, hnone] at hname
  exact hname rfl

theorem name_companion {document target : Path} (h : companion document = .ok target) :
    target.name = document.name ++ companionSuffix := by
  rw [(companion_eq_ok_iff.mp h).2, Path.name]
  simp

theorem eq_child_of_companion {document target : Path} (h : companion document = .ok target) :
    target = document.parent.child (String.ofList (suffixed document.name.toList)) := by
  rw [(companion_eq_ok_iff.mp h).2, suffixed, ← String.toList_append, String.ofList_toList]
  rfl

/-- Read as a target, a name with the suffix is the file of that name in a directory. -/
theorem resolve_suffixed_eq_ok_iff {name : Text} (hslash : '/' ∉ name) {base path : Path} :
    resolve (suffixed name) base = .ok path ↔
      ¬ "data:".toList <+: name ∧ path = base.child (String.ofList (suffixed name)) := by
  have hlong : 1 < (suffixed name).length := by
    have hsuffix : companionSuffix.toList.length = 5 := by decide
    rw [suffixed, List.length_append]
    omega
  have hjoin : base.join (Path.ofText (suffixed name)) =
      base.child (String.ofList (suffixed name)) := by
    rw [Path.ofText_of_isName (slash_not_mem_suffixed hslash) (Path.isName_of_length hlong)]
    rfl
  rw [resolve, ← isRemote_suffixed_iff hslash, hjoin]
  cases isRemote (suffixed name) <;> simp [eq_comm]

section Locate

variable {charset : Charset} {t : Text} {document target : Path}

theorem trim_name_companion (htarget : companion document = .ok target) :
    Text.trim target.name.toList = suffixed (Text.trimStart document.name.toList) := by
  rw [name_companion htarget, String.toList_append]
  exact trim_suffixed _

/-- The reference that is written for a companion file is read without the blanks in front of it. -/
theorem locate_insertReference_eq (htarget : companion document = .ok target)
    (hmarks : MarksReference charset t target.name.toList) :
    locate charset (insertReference t target.name.toList) document.parent =
      resolve (suffixed (Text.trimStart document.name.toList)) document.parent := by
  have htrim := trim_name_companion htarget
  obtain ⟨marker, hspan⟩ := (Marker.exists_ofSpan_iff .linkTag charset (front t ++ referenceLead)
    (escape target.name.toList) ("\">".toList ++ back t)).mpr hmarks
  rw [← insertReference_cut] at hspan
  rw [locate, ofText_insertReference_of_span (by rw [htrim]; exact suffixed_ne_nil _) hspan, htrim]
  rfl

/-- Without a mark for its value the reference is not read. -/
theorem locate_insertReference_of_unmarked (htarget : companion document = .ok target)
    (hmarks : ¬ MarksReference charset t target.name.toList) (base : Path) :
    ∃ fault, locate charset (insertReference t target.name.toList) base =
      .error (.charset fault) := by
  have htrim := trim_name_companion htarget
  cases hspan : Marker.ofSpan .linkTag charset (insertReference t target.name.toList)
      (front t ++ referenceLead).length ((front t ++ referenceLead).length +
        (escape target.name.toList).length) with
  | error fault =>
      refine ⟨fault, ?_⟩
      rw [locate, ofText_insertReference_of_span (by rw [htrim]; exact suffixed_ne_nil _) hspan]
      rfl
  | ok marker =>
      rw [insertReference_cut] at hspan
      exact absurd ((Marker.exists_ofSpan_iff .linkTag charset _ _ _).mp ⟨marker, hspan⟩) hmarks

/-- The reference that is written for a companion file leads to it. -/
theorem locate_insertReference (htarget : companion document = .ok target)
    (hname : Linkable document.name.toList)
    (hmarks : MarksReference charset t target.name.toList) :
    locate charset (insertReference t target.name.toList) document.parent = .ok target := by
  rw [locate_insertReference_eq htarget hmarks, hname.noLeadingBlank,
    resolve_suffixed_eq_ok_iff hname.noSlash]
  exact ⟨hname.notData, eq_child_of_companion htarget⟩

end Locate

end Sidecar

end PageManifest
