import PageManifest.Text.Search

/-!
# Landmarks of a document

Where markup is inserted: behind the opening tag of the head, or in front of the
closing tag of the body.
-/

namespace PageManifest.Markup

/-- A tag that starts with a keyword and runs to the next `>`, and the rest. -/
def tagHere? (keyword : Text) (t : Text) : Option (Text × Text) :=
  match Text.afterKeyword keyword t with
  | none => none
  | some rest =>
      if Text.endsWord rest then
        (Text.splitAtChar '>' rest).map fun (_, rest) => (t.take (t.length - rest.length), rest)
      else none

/-- The first opening tag of a head. -/
def headOpening? (t : Text) : Option (Text.Found Text) :=
  Text.findFirst (tagHere? "<head".toList) t

/-- A closing tag of a body at the start of a text, and the rest. -/
def bodyClosingHere? (t : Text) : Option (Text × Text) :=
  match Text.afterKeyword "</body".toList t with
  | none => none
  | some rest =>
      match rest.dropWhile Text.isBlank with
      | '>' :: rest => some (t.take (t.length - rest.length), rest)
      | _ => none

/-- The first closing tag of a body. -/
def bodyClosing? (t : Text) : Option (Text.Found Text) :=
  Text.findFirst bodyClosingHere? t

theorem tagHere?_length {keyword t rest tag : Text} (hk : keyword ≠ [])
    (h : tagHere? keyword t = some (tag, rest)) : rest.length < t.length := by
  unfold tagHere? at h
  split at h
  · simp at h
  · rename_i r hr
    have hl := (Text.afterKeyword_eq_some hr).2
    have hpos : 0 < keyword.length := List.length_pos_iff.mpr hk
    split at h
    · cases hs : Text.splitAtChar '>' r with
      | none => simp [hs] at h
      | some p =>
          have hp : r = p.1 ++ '>' :: p.2 := Text.splitAtChar_eq_some hs
          have he := congrArg List.length hp
          simp [hs] at h he
          rw [← h.2]
          omega
    · simp at h

end PageManifest.Markup
