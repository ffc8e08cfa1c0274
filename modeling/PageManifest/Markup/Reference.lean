import PageManifest.Markup.Entity
import PageManifest.Markup.Landmark

/-!
# The reference element

A document refers to a companion file by a `link` element with an exactly spelled
relation attribute.  Its target is the value of the first `href` attribute.
-/

namespace PageManifest.Markup

/-- The relation of a reference element, spelled as it has to be. -/
def relationAttribute : Text :=
  "rel=\"c2pa-manifest\"".toList

/-- The canonical reference element for a target. -/
def referenceTag (target : Text) : Text :=
  "<link ".toList ++ relationAttribute ++ " href=\"".toList ++ escape target ++ "\">".toList

/-- A `link` tag at the start of a text, and the rest. -/
def linkHere? (t : Text) : Option (Text × Text) :=
  tagHere? "<link".toList t

/-- The first reference element: links are taken one after the other, without overlap. -/
def referenceIn? (t : Text) : Option (Text.Found Text) :=
  match _h : Text.findFirst linkHere? t with
  | none => none
  | some f =>
      if Text.hasInfix relationAttribute f.item then some f
      else
        (referenceIn? f.after).map fun g =>
          ⟨f.before ++ f.item ++ g.before, g.item, g.after⟩
termination_by t.length
decreasing_by
  exact Text.findFirst_after_length (fun _ _ _ hl => tagHere?_length (by decide) hl) _h

/-- A quoted attribute value with the text in front of it. -/
structure Attribute where
  lead : Text
  value : Text
  deriving DecidableEq, Repr

def hrefHere? (t : Text) : Option Attribute :=
  match Text.afterKeyword "href".toList t with
  | none => none
  | some rest =>
      match rest.dropWhile Text.isBlank with
      | '=' :: rest =>
          match rest.dropWhile Text.isBlank with
          | quote :: rest =>
              if quote = '"' ∨ quote = '\'' then
                (Text.splitAtChar quote rest).map fun (value, _) =>
                  ⟨t.take (t.length - rest.length), value⟩
              else none
          | [] => none
      | _ => none

/--
The first `href` attribute of a tag, at a place where no word is under way.
`passed` is the text in front of it in reverse, and `inWord` tells whether a word
is under way at its end.
-/
def hrefFrom (passed : Text) (inWord : Bool) : Text → Option Attribute
  | [] => none
  | c :: t =>
      match if inWord then none else hrefHere? (c :: t) with
      | some a => some ⟨passed.reverse ++ a.lead, a.value⟩
      | none => hrefFrom (c :: passed) (Text.isWord c) t

def href? (tag : Text) : Option Attribute :=
  hrefFrom [] false tag

end PageManifest.Markup
