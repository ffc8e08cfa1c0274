import PageManifest.Proofs.Scan

/-! # Embedding in the place of an element

The element that is replaced is the first one as a search without blanks finds it.
In front of it nothing is left open, so the written element is the first one
afterwards, and embedding again finds the same place.
-/

namespace PageManifest.Inline

open Markup

variable {t : Text} {f : Text.Found Element}

theorem embed_of_some (hf : Element.find? t = some f) (payload : Bytes) :
    embed t payload = Text.trimEnd f.before ++ (tag payload ++ Text.trimStart f.after) := by
  rw [embed_eq, lead, rest, hf]

theorem find?_embed_of_some (hf : Element.find? t = some f) (payload : Bytes) :
    Element.find? (embed t payload) =
      some ⟨Text.trimEnd f.before, Element.canonical payload, Text.trimStart f.after⟩ := by
  obtain ⟨hopening, hunclosed⟩ := Element.front_settled hf
  rw [embed_of_some hf]
  exact Element.find?_append_tag hopening hunclosed payload _

/-- The payload that was embedded last is all that is left of the payloads before it. -/
theorem embed_embed_of_some (hf : Element.find? t = some f) (first second : Bytes) :
    embed (embed t first) second = embed t second := by
  have hsettled : Text.trimEnd (Text.trimEnd f.before) = Text.trimEnd f.before :=
    Text.trimEnd_of_tight (Text.tight_trimEnd f.before)
  rw [embed_of_some (find?_embed_of_some hf first) second, embed_of_some hf second, hsettled,
    Text.trimStart_trimStart]

/--
Embedding replaces the first element and the blanks around it by the written
element, which then is the first one; what was embedded before does not matter.
-/
theorem embed_replaces_first (hf : Element.find? t = some f) (first second : Bytes) :
    t = f.before ++ (f.item.text ++ f.after) ∧
    embed t first = Text.trimEnd f.before ++ (tag first ++ Text.trimStart f.after) ∧
    Element.find? (embed t first) =
      some ⟨Text.trimEnd f.before, Element.canonical first, Text.trimStart f.after⟩ ∧
    (Element.canonical first).text = tag first ∧
    embed (embed t first) second = embed t second ∧
    embed (embed t first) first = embed t first :=
  ⟨(Element.find?_eq_some_iff.mp hf).1, embed_of_some hf first, find?_embed_of_some hf first,
    Element.text_canonical first, embed_embed_of_some hf first second,
    embed_embed_of_some hf first first⟩

/-- An element between blanks and the halves of a keyword, with another element behind it. -/
def crowdedElement : Text :=
  "<scr \u2003\n".toList ++
    ("<SCRIPT async type = 'application/c2pa-manifest'> old </Script\t>".toList ++
      "\r\nipt <script type=\"application/c2pa-manifest\">QQ==</script>".toList)

theorem find?_crowdedElement : Element.find? crowdedElement = some ⟨"<scr \u2003\n".toList,
    ⟨"<SCRIPT async type = 'application/c2pa-manifest'>".toList, " old ".toList,
      "</Script\t>".toList⟩,
    "\r\nipt <script type=\"application/c2pa-manifest\">QQ==</script>".toList⟩ := by
  have hhere : Element.here?
      ("<SCRIPT async type = 'application/c2pa-manifest'> old </Script\t>".toList ++
        "\r\nipt <script type=\"application/c2pa-manifest\">QQ==</script>".toList) =
      some (⟨"<SCRIPT async type = 'application/c2pa-manifest'>".toList, " old ".toList,
        "</Script\t>".toList⟩,
        "\r\nipt <script type=\"application/c2pa-manifest\">QQ==</script>".toList) := by
    -- Exposes the characters of the texts, which evaluation would otherwise decode.
    repeat rw [String.toList_ofList]
    decide +kernel
  refine Text.findFirst_append_of_silent
    (Element.silent_here? (by decide +kernel) (by decide +kernel) ?_) hhere
  intro c v hcut
  have hhead : (c :: v).head? = some '<' := by
    rw [← hcut]
    decide +kernel
  exact Option.some.inj hhead

-- The body that is replaced is no payload text, and one of the payloads is empty.
theorem embed_replaces_first_crowded :
    Element.find? (embed crowdedElement []) = some ⟨Text.trimEnd "<scr \u2003\n".toList,
      Element.canonical [], Text.trimStart
        "\r\nipt <script type=\"application/c2pa-manifest\">QQ==</script>".toList⟩ ∧
    embed (embed crowdedElement []) [0x41] = embed crowdedElement [0x41] := by
  obtain ⟨-, -, hfirst, -, htwice, -⟩ := embed_replaces_first find?_crowdedElement [] [0x41]
  exact ⟨hfirst, htwice⟩

end PageManifest.Inline
