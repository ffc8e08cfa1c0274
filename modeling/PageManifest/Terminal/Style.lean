import PageManifest.Terminal.Control

/-!
# Styled terminal text

Colours and emphasis are control sequences around a text.  There are two ways of
putting them there.  A `Paint` sets everything in front of a text and resets all
behind it.  A `Pen` has a sequence of its own for switching off, and can go over
text that is already styled: it is put back wherever the text inside switches it
off, and it stops at line breaks.
-/

namespace PageManifest.Terminal

/-- The sixteen colours of a terminal, and its default colour. -/
inductive Color
  | black | red | green | yellow | blue | magenta | cyan | white
  | brightBlack | brightRed | brightGreen | brightYellow | brightBlue | brightMagenta
  | brightCyan | brightWhite
  | default
  deriving DecidableEq, Repr

namespace Color

/-- The code that makes a colour the colour of text. -/
def code : Color → Nat
  | black => 30
  | red => 31
  | green => 32
  | yellow => 33
  | blue => 34
  | magenta => 35
  | cyan => 36
  | white => 37
  | default => 39
  | brightBlack => 90
  | brightRed => 91
  | brightGreen => 92
  | brightYellow => 93
  | brightBlue => 94
  | brightMagenta => 95
  | brightCyan => 96
  | brightWhite => 97

def ofName? : String → Option Color
  | "black" => some black
  | "red" => some red
  | "green" => some green
  | "yellow" => some yellow
  | "blue" => some blue
  | "magenta" => some magenta
  | "cyan" => some cyan
  | "white" => some white
  | "reset" => some default
  | "bright_black" => some brightBlack
  | "bright_red" => some brightRed
  | "bright_green" => some brightGreen
  | "bright_yellow" => some brightYellow
  | "bright_blue" => some brightBlue
  | "bright_magenta" => some brightMagenta
  | "bright_cyan" => some brightCyan
  | "bright_white" => some brightWhite
  | _ => none

end Color

/-- What text and its background are coloured with. -/
inductive Tint
  /-- One of the colours that have names. -/
  | named (color : Color)
  /-- One of the colours of a palette of 256. -/
  | numbered (index : Fin 256)
  /-- A colour with three parts. -/
  | mixed (red green blue : Fin 256)
  deriving DecidableEq, Repr

namespace Tint

/-- A number that fits one octet. -/
def octet? (n : Int) : Option (Fin 256) :=
  if h : 0 ≤ n ∧ n < 256 then some ⟨n.toNat, by omega⟩ else none

/-- The tint of a number, if the palette goes that far. -/
def ofNumber? (n : Int) : Option Tint :=
  (octet? n).map numbered

/-- The tint with some parts, if none of them is too strong. -/
def ofParts? (red green blue : Int) : Option Tint := do
  some (mixed (← octet? red) (← octet? green) (← octet? blue))

/-- The codes that colour the text, or what is behind it. -/
def codes (behind : Bool) : Tint → List Nat
  | named color => [color.code + if behind then 10 else 0]
  | numbered index => [38 + if behind then 10 else 0, 5, index]
  | mixed red green blue => [38 + if behind then 10 else 0, 2, red, green, blue]

end Tint

inductive Emphasis
  | bold | dim | underline | overline | italic | blink | reverse | strikethrough
  deriving DecidableEq, Repr

/-- The code that switches an emphasis on or off. -/
def Emphasis.code : Emphasis → (on : Bool) → Nat
  | bold, on => if on then 1 else 22
  | dim, on => if on then 2 else 22
  | underline, on => if on then 4 else 24
  | overline, on => if on then 53 else 55
  | italic, on => if on then 3 else 23
  | blink, on => if on then 5 else 25
  | reverse, on => if on then 7 else 27
  | strikethrough, on => if on then 9 else 29

/-- What is set in front of a text; everything is reset behind it if `reset` says so. -/
structure Paint where
  foreground : Option Tint
  background : Option Tint
  emphases : List (Emphasis × Bool)
  reset : Bool
  deriving DecidableEq, Repr

namespace Paint

def ofTint (tint : Tint) : Paint :=
  ⟨some tint, none, [], true⟩

/-- Text in one colour. -/
def ofColor (color : Color) : Paint :=
  ofTint (.named color)

/-- Text with some kinds of emphasis. -/
def ofEmphases (emphases : List Emphasis) : Paint :=
  ⟨none, none, emphases.map (·, true), true⟩

/-- The codes in front of the text, sequence by sequence. -/
def codes (p : Paint) : List (List Nat) :=
  p.foreground.toList.map (·.codes false) ++ p.background.toList.map (·.codes true) ++
    p.emphases.map fun (emphasis, on) => [emphasis.code on]

def apply (p : Paint) (t : Text) : Text :=
  p.codes.flatMap sequence ++ t ++ if p.reset then control 0 else []

end Paint

/-- A style with a code for switching it on and another for switching it off. -/
structure Pen where
  on : Nat
  off : Nat
  deriving DecidableEq, Repr

namespace Pen

def ofColor (color : Color) : Pen :=
  ⟨color.code, Color.default.code⟩

def bold : Pen :=
  ⟨Emphasis.bold.code true, Emphasis.bold.code false⟩

def dim : Pen :=
  ⟨Emphasis.dim.code true, Emphasis.dim.code false⟩

/-- Puts the pen back behind each place where the text switches it off. -/
def resume (p : Pen) : Text → Text
  | [] => []
  | c :: t =>
      if (control p.off).isPrefixOf (c :: t) then
        control p.off ++ control p.on ++ resume p ((c :: t).drop (control p.off).length)
      else c :: resume p t
termination_by t => t.length
decreasing_by
  · have code := length_control_pos p.off
    have text : 0 < (c :: t).length := by simp
    rw [List.length_drop]
    omega
  · simp

/-- What a text holds up to a full reset on the same line, and what follows the reset. -/
def untilReset (t : Text) : Option (Text × Text) :=
  match t with
  | [] => none
  | c :: t =>
      if (control 0).isPrefixOf (c :: t) then some ([], (c :: t).drop (control 0).length)
      else if c = '\n' then none
      else (untilReset t).map fun (inside, rest) => (c :: inside, rest)

theorem untilReset_length {t inside rest : Text} (h : untilReset t = some (inside, rest)) :
    rest.length ≤ t.length := by
  induction t generalizing inside with
  | nil => simp [untilReset] at h
  | cons c t ih =>
      unfold untilReset at h
      split at h
      · simp at h
        rw [← h.2]
        simp
      · split at h
        · simp at h
        · cases hu : untilReset t with
          | none => simp [hu] at h
          | some r =>
              simp [hu] at h
              have := @ih r.1 (by rw [hu, ← h.2])
              simp
              omega

/-- Leaves alone what stands between two full resets on one line. -/
def spare (p : Pen) (t : Text) : Text :=
  match t with
  | [] => []
  | c :: t =>
      if (control 0).isPrefixOf (c :: t) then
        match _h : untilReset ((c :: t).drop (control 0).length) with
        | some (inside, rest) =>
            control p.off ++ control 0 ++ inside ++ control 0 ++ control p.on ++ spare p rest
        | none => c :: spare p t
      else c :: spare p t
termination_by t.length
decreasing_by
  · have code := length_control_pos 0
    have shorter := untilReset_length _h
    rw [List.length_drop] at shorter
    simp only [List.length_cons] at shorter ⊢
    omega
  · simp
  · simp

/-- Switches the pen off in front of a line break and on behind it. -/
def interrupt (p : Pen) : Text → Text
  | [] => []
  | '\r' :: '\n' :: t => control p.off ++ '\r' :: '\n' :: control p.on ++ interrupt p t
  | '\n' :: t => control p.off ++ '\n' :: control p.on ++ interrupt p t
  | c :: t => c :: interrupt p t

def draw (p : Pen) (t : Text) : Text :=
  control p.on ++ interrupt p (spare p (resume p t)) ++ control p.off

end Pen

end PageManifest.Terminal
