import PageManifest.Text.Search

/-!
# The inline manifest element

A manifest element is a `script` element whose opening tag holds a `type`
attribute for manifest stores.  Reading is tolerant: letter case, blanks, further
attributes and the kind of quotes do not matter.  The body runs to the first
closing tag.
-/

namespace PageManifest.Markup

/-- The media type of a manifest store in an inline element. -/
def manifestType : Text :=
  "application/c2pa-manifest".toList

/-- A manifest element as its opening tag, its body and its closing tag. -/
structure Element where
  opening : Text
  body : Text
  closing : Text
  deriving DecidableEq, Repr

namespace Element

def text (e : Element) : Text :=
  e.opening ++ e.body ++ e.closing

/-- Whether a `type` attribute for manifest stores stands at the start of a text. -/
def typeHere (t : Text) : Bool :=
  match Text.afterKeyword "type".toList t with
  | none => false
  | some t =>
      match t.dropWhile Text.isBlank with
      | '=' :: t =>
          match t.dropWhile Text.isBlank with
          | left :: t =>
              (left == '"' || left == '\'') &&
                (match Text.afterKeyword manifestType t with
                | some (right :: _) => right == '"' || right == '\''
                | _ => false)
          | [] => false
      | _ => false

/--
Whether a `type` attribute for manifest stores stands somewhere in a text, at a
place where no word is under way; `inWord` tells whether one is at the start.
-/
def hasType (inWord : Bool) : Text → Bool
  | [] => false
  | c :: t => (!inWord && typeHere (c :: t)) || hasType (Text.isWord c) t

/-- The closing tag at the start of a text, and the rest. -/
def closing? (t : Text) : Option (Text × Text) :=
  match Text.afterKeyword "</script".toList t with
  | none => none
  | some rest =>
      match rest.dropWhile Text.isBlank with
      | '>' :: rest => some (t.take (t.length - rest.length), rest)
      | _ => none

/--
The opening tag at the start of a text, and the rest.  The tag ends with the
first `>`, and the attribute has to stand in front of it.
-/
def opening? (t : Text) : Option (Text × Text) :=
  match Text.afterKeyword "<script".toList t with
  | none => none
  | some rest =>
      if Text.endsWord rest then
        match Text.splitAtChar '>' rest with
        | none => none
        | some (attributes, rest) =>
            if hasType true attributes then some (t.take (t.length - rest.length), rest) else none
      else none

/-- The manifest element at the start of a text, and the rest. -/
def here? (t : Text) : Option (Element × Text) :=
  match opening? t with
  | none => none
  | some (opening, rest) =>
      (Text.findFirst closing? rest).map fun f => (⟨opening, f.before, f.item⟩, f.after)

/-- The first manifest element of a text, whatever its body. -/
def find? (t : Text) : Option (Text.Found Element) :=
  Text.findFirst here? t

/--
A manifest element with the blanks around it at the start of a text.  Blanks in
front of it belong to it only where their run starts; `inRun` tells that the
text starts inside a run.
-/
def padded? (inRun : Bool) (t : Text) : Option (Element × Text) :=
  (here? (if inRun then t else Text.trimStart t)).map fun (e, rest) => (e, Text.trimStart rest)

theorem closing?_length {t rest closing : Text} (h : closing? t = some (closing, rest)) :
    rest.length < t.length := by
  unfold closing? at h
  split at h
  · simp at h
  · rename_i r hr
    have hl := (Text.afterKeyword_eq_some hr).2
    have hd := (List.dropWhile_sublist Text.isBlank (l := r)).length_le
    split at h
    · rename_i r' he
      rw [he] at hd
      simp at h hd
      rw [← h.2]
      simp at hl
      omega
    · simp at h

theorem opening?_length {t rest opening : Text} (h : opening? t = some (opening, rest)) :
    rest.length < t.length := by
  unfold opening? at h
  split at h
  · simp at h
  · rename_i r hr
    have hl := (Text.afterKeyword_eq_some hr).2
    split at h
    · split at h
      · simp at h
      · rename_i a r' hs
        have he := congrArg List.length (Text.splitAtChar_eq_some hs)
        split at h
        · simp at h he
          rw [← h.2]
          simp at hl
          omega
        · simp at h
    · simp at h

theorem here?_length {t rest : Text} {e : Element} (h : here? t = some (e, rest)) :
    rest.length < t.length := by
  unfold here? at h
  split at h
  · simp at h
  · rename_i o r ho
    cases hf : Text.findFirst closing? r with
    | none => simp [hf] at h
    | some f =>
        simp [hf] at h
        have h1 := opening?_length ho
        have h2 := Text.findFirst_after_length (fun _ _ _ hc => closing?_length hc) hf
        rw [← h.2]
        omega

theorem padded?_length {inRun : Bool} {t rest : Text} {e : Element}
    (h : padded? inRun t = some (e, rest)) : rest.length < t.length := by
  unfold padded? at h
  generalize hs : (if inRun then t else Text.trimStart t) = s at h
  have hle : s.length ≤ t.length := by
    rw [← hs]
    split
    · exact Nat.le_refl _
    · exact Text.length_trimStart_le t
  cases hh : here? s with
  | none => simp [hh] at h
  | some r =>
      simp [hh] at h
      have h1 : r.2.length < s.length := here?_length hh
      have h2 := Text.length_trimStart_le r.2
      rw [← h.2]
      omega

end Element

end PageManifest.Markup
