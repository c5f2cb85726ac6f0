import MicroEmu.Desktop.ModelConfig
import MicroEmu.Library.Encodings
import MicroEmu.Library.Utf8

/-!
# What the desktop automation is told

A request for a session goes to its application as a link, or as a script with a few lines in
front that set variables.  Ids and titles are any texts: they are written percent-encoded in a
link and in base64 in a script, so that nothing in them is read as anything else.
-/

namespace MicroEmu
namespace Desktop

open Feeds.ClaudeState (splitNewlines)
open Library (encodeUtf8 decodeUtf8 base64Encode base64Decode percentEncode percentDecode
  isUnreserved)

/-- What stands in front of the code in `unicode_literal`, and behind it. -/
def literalStart : String :=
  "[System.Text.Encoding]::UTF8.GetString([System.Convert]::FromBase64String('"

def literalEnd : String := "'))"

/-- `unicode_literal`, with `base64_encode`. -/
def unicodeLiteral (value : String) : String :=
  literalStart ++ String.ofList (base64Encode (encodeUtf8 value)) ++ literalEnd

/-- `encode_uri_component`. -/
def encodeUriComponent (value : String) : String :=
  String.ofList (percentEncode (encodeUtf8 value))

/-- The address of `open_session_deep_link`. -/
def sessionDeepLink (sessionId : String) : String :=
  "hermes://open/" ++ encodeUriComponent sessionId

/-- A line that sets a variable. -/
def assignment (variableName value : String) : String :=
  "$" ++ variableName ++ " = " ++ unicodeLiteral value

/-- The script of `run_request` of Hermes, in front of the part that is always the same. -/
def hermesScript (selectSession : String) (window : Int) (sessionId title : String) : String :=
  "$WindowHandle = " ++ toString window ++ "\n" ++ assignment "TargetSessionId" sessionId ++
    "\n" ++ assignment "TargetTitle" title ++ "\n" ++ selectSession

/-- The scripts of `run_request` of ZCode: a session is looked for by its title. -/
def zcodeSelectScript (selectSession : String) (window : Int) (title : String) : String :=
  "$WindowHandle = " ++ toString window ++ "\n" ++ assignment "TargetTitle" title ++ "\n" ++
    selectSession

def zcodeNewTaskScript (newTask : String) (window : Int) : String :=
  "$WindowHandle = " ++ toString window ++ "\n" ++ newTask

/-! ## How they are read -/

/-- The value that a line gives to a variable, if it is written as `unicode_literal` writes it. -/
def assignedText (variableName : String) (line : List Char) : Option String :=
  let start := ("$" ++ variableName ++ " = " ++ literalStart).toList
  if start.isPrefixOf line then
    let rest := line.drop start.length
    let code := rest.takeWhile (· != '\'')
    if rest.drop code.length = literalEnd.toList then (base64Decode code).bind decodeUtf8 else none
  else none

/-- The session that a link opens: the whole of its path. -/
def linkedSession (link : List Char) : Option String :=
  let start := "hermes://open/".toList
  if start.isPrefixOf link then (percentDecode (link.drop start.length)).bind decodeUtf8
  else none

theorem decodeUtf8_encodeUtf8 (text : String) : decodeUtf8 (encodeUtf8 text) = some text := by
  have hbytes : (⟨(encodeUtf8 text).toArray⟩ : ByteArray) = text.toByteArray := by
    simp [encodeUtf8]
  rw [decodeUtf8, hbytes, String.fromUTF8?]
  rw [dif_pos text.isValidUTF8]
  rfl

theorem base64Alphabet_plain :
    Library.base64Alphabet.all (fun char =>
      char != '\'' && char != '\n' && decide (char.toNat < 128)) = true := by
  decide

theorem base64_ne {bytes : List UInt8} {char : Char} (h : char ∈ base64Encode bytes) :
    char ≠ '\'' ∧ char ≠ '\n' ∧ char.toNat < 128 := by
  rcases Library.mem_base64Encode bytes h with hmem | rfl
  · have hplain := List.all_eq_true.mp base64Alphabet_plain char hmem
    simpa [and_assoc] using hplain
  · decide

/-- A link is read back as the session it was made for. -/
theorem linkedSession_sessionDeepLink (sessionId : String) :
    linkedSession (sessionDeepLink sessionId).toList = some sessionId := by
  rw [linkedSession, sessionDeepLink, String.toList_append, encodeUriComponent]
  simp only [List.isPrefixOf_iff_prefix, List.prefix_append, if_true, List.drop_left]
  rw [String.toList_ofList (l := percentEncode (encodeUtf8 sessionId)),
    Library.percentDecode_encode, Option.bind_some, decodeUtf8_encodeUtf8]

/-- A line that sets a variable is read back. -/
theorem assignedText_assignment (variableName value : String) :
    assignedText variableName (assignment variableName value).toList = some value := by
  have hline : (assignment variableName value).toList =
      ("$" ++ variableName ++ " = " ++ literalStart).toList ++
        (base64Encode (encodeUtf8 value) ++ literalEnd.toList) := by
    simp only [assignment, unicodeLiteral, String.toList_append, List.append_assoc]
    rw [String.toList_ofList (l := base64Encode (encodeUtf8 value))]
  have hends : literalEnd.toList = ['\'', ')', ')'] := by simp [literalEnd]
  have hcode : (base64Encode (encodeUtf8 value) ++ literalEnd.toList).takeWhile (· != '\'') =
      base64Encode (encodeUtf8 value) := by
    rw [hends, List.takeWhile_append_of_pos]
    · simp
    · intro char hchar
      simpa using (base64_ne hchar).1
  rw [assignedText, hline]
  simp only [List.isPrefixOf_iff_prefix, List.prefix_append, if_true, List.drop_left, hcode]
  rw [Library.base64Decode_encode, Option.bind_some, decodeUtf8_encodeUtf8]

/-! ## The lines of a script -/

/-- The characters of a line that stands in front of a script. -/
def Printable (line : List Char) : Prop := ∀ char ∈ line, char ≠ '\n' ∧ char.toNat < 128

theorem Printable.append {front back : List Char} (h : Printable front) (hback : Printable back) :
    Printable (front ++ back) := by
  intro char hchar
  rcases List.mem_append.mp hchar with hchar | hchar
  · exact h char hchar
  · exact hback char hchar

/-- A line ends at the newline behind it. -/
theorem splitNewlines_line {line : List Char} (h : Printable line) (rest : List Char) :
    splitNewlines (line ++ '\n' :: rest) = line :: splitNewlines rest := by
  induction line with
  | nil =>
      rw [List.nil_append, splitNewlines]
      split
      next hnone =>
        rw [splitNewlines_eq] at hnone
        exact absurd hnone (List.splitOn_ne_nil _ _)
      next first lines hlines => rw [if_pos rfl, hlines]
  | cons char line ih =>
      have hchar : char ≠ '\n' := (h char List.mem_cons_self).1
      rw [List.cons_append, splitNewlines, ih fun other hother =>
        h other (List.mem_cons_of_mem _ hother)]
      simp only [hchar, if_false]

theorem printable_repr (number : Nat) : Printable number.repr.toList := by
  intro char hchar
  rw [Nat.toList_repr] at hchar
  have hdigit : char.isDigit = true := Nat.isDigit_of_mem_toDigits (by decide) (by decide) hchar
  have hbounds : 48 ≤ char.toNat ∧ char.toNat ≤ 57 := by
    simpa [Char.isDigit, UInt32.le_iff_toNat_le] using hdigit
  refine ⟨?_, by omega⟩
  rintro rfl
  revert hbounds
  decide

theorem printable_toString (number : Int) : Printable (toString number).toList := by
  cases number with
  | ofNat number => exact printable_repr number
  | negSucc number =>
      show Printable ("-" ++ (number + 1).repr).toList
      rw [String.toList_append]
      refine Printable.append ?_ (printable_repr _)
      simp [Printable]

theorem printable_unicodeLiteral (value : String) : Printable (unicodeLiteral value).toList := by
  have hstart : Printable literalStart.toList := by
    simp [Printable, literalStart]
  have hend : Printable literalEnd.toList := by
    simp [Printable, literalEnd]
  rw [unicodeLiteral, String.toList_append, String.toList_append]
  refine (hstart.append fun char hchar => ?_).append hend
  rw [String.toList_ofList (l := base64Encode (encodeUtf8 value))] at hchar
  exact (base64_ne hchar).2

theorem printable_assignment {variableName : String} (h : Printable variableName.toList)
    (value : String) :
    Printable (assignment variableName value).toList := by
  rw [assignment, String.toList_append, String.toList_append, String.toList_append]
  refine Printable.append (Printable.append (Printable.append ?_ h) ?_)
    (printable_unicodeLiteral value)
  · simp [Printable]
  · simp [Printable]

theorem printable_handle (window : Int) :
    Printable ("$WindowHandle = " ++ toString window).toList := by
  rw [String.toList_append]
  refine Printable.append ?_ (printable_toString window)
  simp [Printable]

/-- A text of lines and the part behind them. -/
theorem toList_lines (first second third rest : String) :
    (first ++ "\n" ++ second ++ "\n" ++ third ++ "\n" ++ rest).toList =
      first.toList ++ '\n' ::
        (second.toList ++ '\n' :: (third.toList ++ '\n' :: rest.toList)) := by
  simp

theorem toList_two_lines (first second rest : String) :
    (first ++ "\n" ++ second ++ "\n" ++ rest).toList =
      first.toList ++ '\n' :: (second.toList ++ '\n' :: rest.toList) := by
  simp

theorem printable_sessionId (sessionId : String) :
    Printable (assignment "TargetSessionId" sessionId).toList :=
  printable_assignment (by simp [Printable]) sessionId

theorem printable_title (title : String) : Printable (assignment "TargetTitle" title).toList :=
  printable_assignment (by simp [Printable]) title

theorem splitNewlines_hermesScript (selectSession : String) (window : Int)
    (sessionId title : String) :
    splitNewlines (hermesScript selectSession window sessionId title).toList =
      ("$WindowHandle = " ++ toString window).toList ::
        (assignment "TargetSessionId" sessionId).toList ::
        (assignment "TargetTitle" title).toList :: splitNewlines selectSession.toList := by
  have htext := toList_lines ("$WindowHandle = " ++ toString window)
    (assignment "TargetSessionId" sessionId) (assignment "TargetTitle" title) selectSession
  unfold hermesScript
  rw [htext, splitNewlines_line (printable_handle window),
    splitNewlines_line (printable_sessionId sessionId), splitNewlines_line (printable_title title)]

theorem splitNewlines_zcodeSelectScript (selectSession : String) (window : Int)
    (title : String) :
    splitNewlines (zcodeSelectScript selectSession window title).toList =
      ("$WindowHandle = " ++ toString window).toList ::
        (assignment "TargetTitle" title).toList :: splitNewlines selectSession.toList := by
  have htext := toList_two_lines ("$WindowHandle = " ++ toString window)
    (assignment "TargetTitle" title) selectSession
  unfold zcodeSelectScript
  rw [htext, splitNewlines_line (printable_handle window),
    splitNewlines_line (printable_title title)]

/-- Whatever the id and the title of a session are, nothing in them is lost and nothing in them
is read as anything else.  Each script is the part that is always the same behind one line for
the window and one line for each text, all of them in ASCII; a line gives back exactly the text
it was made for.  The path of a link has unreserved characters and percent signs only, and
gives back the id. -/
theorem requests_carried (selectHermes selectZcode : String) (window : Int)
    (sessionId title : String) :
    (∃ handle first second,
      splitNewlines (hermesScript selectHermes window sessionId title).toList =
          handle :: first :: second :: splitNewlines selectHermes.toList ∧
        Printable (handle ++ first ++ second) ∧
        assignedText "TargetSessionId" first = some sessionId ∧
        assignedText "TargetTitle" second = some title) ∧
      (∃ handle first,
        splitNewlines (zcodeSelectScript selectZcode window title).toList =
            handle :: first :: splitNewlines selectZcode.toList ∧
          Printable (handle ++ first) ∧ assignedText "TargetTitle" first = some title) ∧
      linkedSession (sessionDeepLink sessionId).toList = some sessionId ∧
      ∀ char ∈ (encodeUriComponent sessionId).toList, isUnreserved char = true ∨ char = '%' := by
  have hhandle := printable_handle window
  have hid := printable_sessionId sessionId
  have htitle := printable_title title
  refine ⟨⟨_, _, _, splitNewlines_hermesScript selectHermes window sessionId title,
    (hhandle.append hid).append htitle, assignedText_assignment "TargetSessionId" sessionId,
    assignedText_assignment "TargetTitle" title⟩,
    ⟨_, _, splitNewlines_zcodeSelectScript selectZcode window title, hhandle.append htitle,
      assignedText_assignment "TargetTitle" title⟩,
    linkedSession_sessionDeepLink sessionId, ?_⟩
  · intro char hchar
    rw [encodeUriComponent, String.toList_ofList] at hchar
    exact Library.mem_percentEncode _ hchar

end Desktop
end MicroEmu
