import DefinitionSite.Environment
import DefinitionSite.Text.Basic

/-! Colours of the output. A terminal gets them as escape sequences; elsewhere the text stays plain,
and only an error is marked by a sign in front. What is printed elsewhere loses the escape sequences
that it brought along. -/
namespace DefinitionSite

inductive Tone where
  | dim
  | bold
  | green
  | yellow
  | red
  deriving Repr, DecidableEq

namespace Tone

def code : Tone → Nat
  | .dim => 90
  | .bold => 1
  | .green => 32
  | .yellow => 33
  | .red => 31

def paint (color : Bool) (tone : Tone) (text : String) : String :=
  if color then "\x1b[" ++ toString tone.code ++ "m" ++ text ++ "\x1b[0m"
  else if tone == .red then "! " ++ text
  else text

end Tone

def resultLine (color : Bool) (path : String) (line : Int) (text : String) : String :=
  Tone.bold.paint color path ++ ":" ++ Tone.yellow.paint color (toString line) ++ ": " ++ text

/-- Whether output is coloured. The variables that force colours or forbid them come first; else
only a terminal is coloured, and on Windows only one that is known to handle colours. -/
def supportsColor (env : Environment) (platform : Platform) (terminal : Bool) : Bool :=
  if env.has "FORCE_COLOR" then true
  else if env.has "NO_COLOR" then false
  else if !terminal then false
  else
    match platform with
    | .posix => true
    | .windows =>
      env.has "WT_SESSION" || env.get? "TERM_PROGRAM" == some "vscode" || env.has "TERM"

/-- Whether a character may stand between the opening of an escape sequence and its last letter. -/
def isSequenceParameter (c : Char) : Bool := c.isDigit || c == ';' || c == '?'

def afterSequence? (text : Text) : Option Text :=
  match text.dropWhile isSequenceParameter with
  | c :: rest => if c.isAlpha then some rest else none
  | [] => none

theorem afterSequence?_length {text after : Text} (h : afterSequence? text = some after) :
    after.length < text.length := by
  have hle := (List.dropWhile_suffix isSequenceParameter (l := text)).length_le
  unfold afterSequence? at h
  split at h
  · next c rest heq =>
    rw [heq, List.length_cons] at hle
    split at h
    · cases h
      exact hle
    · cases h
  · cases h

/-- A text without its escape sequences; one that is not closed stays. -/
def withoutSequences : Text → Text
  | [] => []
  | '\x1b' :: '[' :: inner =>
    match h : afterSequence? inner with
    | some after =>
      have := afterSequence?_length h
      withoutSequences after
    | none => '\x1b' :: '[' :: withoutSequences inner
  | c :: rest => c :: withoutSequences rest
termination_by text => text.length
decreasing_by all_goals simp only [List.length_cons]; omega

def plain (text : String) : String := String.ofList (withoutSequences text.toList)

end DefinitionSite
