import MicroEmu.Feeds.ClaudeState
import MicroEmu.Library.Blanks
import MicroEmu.Library.Runs

/-!
# The model in the configuration of Codex

A press of the model key has the desktop application select another model, and writes its name
into the configuration file, where the bridge reads it for the display.  The lines that are read
are those before the first section.
-/

namespace MicroEmu
namespace Desktop

open Feeds.ClaudeState (textLines)
open Library (runFrom strip dropWhile_strip strip_strip strip_concat strip_eq_self
  exists_strip_append dropWhile_eq_self_of_head isPrefixOf_append_blanks
  isPrefixOf_dropWhile_append_blanks)

/-! ## Lines of the file -/

/-- `str::trim_start`. -/
def trimStart (text : String) : String :=
  String.ofList (text.toList.dropWhile Json.isWhitespace)

/-- `str::ends_with`. -/
def endsWith (text suffix : String) : Bool := suffix.toList.isSuffixOf text.toList

/-- `lines.join("\n")`. -/
def joinLines (lines : List String) : String :=
  String.ofList (List.intercalate ['\n'] (lines.map String.toList))

def isTopLevelKey (line key : String) : Bool :=
  match Json.stripPrefix (trimStart line) key with
  | some rest => Json.startsWith (trimStart rest) "="
  | none => false

/-- The header of a section. -/
def isSection (line : String) : Bool := Json.startsWith (trimStart line) "["

/-! ## Writing -/

/-- `FEATURED_MODELS`. -/
def featuredModels : List String := ["gpt-5.6-sol", "gpt-5.6-terra", "gpt-5.6-luna"]

/-- The line of a model. -/
def modelLine (newModel : String) : String := "model = \"" ++ newModel ++ "\""

/-- The loop of `replace_top_level_model`, with `in_section` and `replaced`. -/
def replaceLines (newModel : String) : List String → Bool → Bool → List String × Bool
  | [], _, replaced => ([], replaced)
  | line :: lines, inSection, replaced =>
      let inSection := inSection || isSection line
      if !inSection && !replaced && isTopLevelKey line "model" then
        let rest := replaceLines newModel lines inSection true
        (modelLine newModel :: rest.1, rest.2)
      else
        let rest := replaceLines newModel lines inSection replaced
        (line :: rest.1, rest.2)

def replaceTopLevelModel (content newModel : String) : String :=
  let replaced := replaceLines newModel (textLines content) false false
  let joined := joinLines replaced.1
  let out := if replaced.2 then joined else modelLine newModel ++ "\n" ++ joined
  if endsWith content "\n" then out ++ "\n" else out

/-- A press of the model key: what the automation of the application prints, and whether the
configuration file can be read and written then. -/
structure ModelPress where
  printed : Except String String
  readable : Bool
  writable : Bool

/-- The model that the automation has printed. -/
def selectedModel (stdout : String) : Except String String :=
  match featuredModels.find? fun model =>
    (textLines stdout).any fun line => Json.trim line == model with
  | some model => .ok model
  | none =>
      .error ("Codex model UI automation returned an unexpected result: " ++ Json.trim stdout)

/-- `persist_default_model`: a file that cannot be read is taken for an empty one. -/
def persistDefaultModel (press : ModelPress) (newModel : String) (file : Option String) :
    Option String :=
  let content := if press.readable then file.getD "" else ""
  if press.writable then some (replaceTopLevelModel content newModel) else file

/-- `cycle_model`: what becomes of the file makes no difference to the result. -/
def cycleModel (press : ModelPress) (file : Option String) :
    Except String String × Option String :=
  match press.printed.bind selectedModel with
  | .error error => (.error error, file)
  | .ok model => (.ok model, persistDefaultModel press model file)

/-- The file after a number of presses. -/
def cycleModels (presses : List ModelPress) (file : Option String) : Option String :=
  runFrom (fun file press => (cycleModel press file).2) presses file

/-! ## Reading -/

/-- The text stands between two such quotes. -/
def isQuoted (quote text : String) : Bool :=
  Json.startsWith text quote && endsWith text quote && decide (2 ≤ text.toList.length)

/-- The text without its first and its last character. -/
def unquoted (text : String) : String := String.ofList text.toList.tail.dropLast

/-- `parse_toml_kv`. -/
def parseTomlKv (line key : String) : Option String :=
  (Json.stripPrefix line (key ++ " = ")).map fun rest =>
    let rest := Json.trim rest
    if isQuoted "\"" rest then unquoted rest
    else if isQuoted "'" rest then unquoted rest
    else rest

structure CodexConfig where
  model : Option String
  effort : Option String
  inSection : Bool

/-- One line of the loop of `read_codex_config`. -/
def readLine (config : CodexConfig) (line : String) : CodexConfig :=
  let trimmed := Json.trim line
  if Json.startsWith trimmed "[" then { config with inSection := true }
  else if config.inSection then config
  else
    { config with
      model := (parseTomlKv trimmed "model").or config.model
      effort := (parseTomlKv trimmed "model_reasoning_effort").or config.effort }

def readCodexConfig : Option String → Option String × Option String
  | none => (none, none)
  | some content =>
      let config := (textLines content).foldl readLine ⟨none, none, false⟩
      (config.model, config.effort)

/-! ## Blanks -/

theorem toList_trim (text : String) :
    (Json.trim text).toList = strip Json.isWhitespace text.toList := by
  rw [Json.trim, String.toList_ofList]
  rfl

theorem trim_trim (text : String) : Json.trim (Json.trim text) = Json.trim text := by
  apply String.toList_inj.mp
  rw [toList_trim, toList_trim, strip_strip]

theorem trimStart_trim (text : String) : trimStart (Json.trim text) = Json.trim text := by
  apply String.toList_inj.mp
  rw [trimStart, String.toList_ofList, toList_trim, dropWhile_strip]

/-- A text without blanks. -/
def Plain (text : String) : Prop := ∀ c ∈ text.toList, Json.isWhitespace c = false

theorem plain_bracket : ∀ c ∈ ['['], Json.isWhitespace c = false := by simp [Json.isWhitespace]

theorem plain_equals : ∀ c ∈ ['='], Json.isWhitespace c = false := by simp [Json.isWhitespace]

/-- What a line starts with does not depend on the blanks around it. -/
theorem isSection_eq (line : String) :
    isSection line = ['['].isPrefixOf (line.toList.dropWhile Json.isWhitespace) := by
  have hliteral : "[".toList = ['['] := by simp
  rw [isSection, Json.startsWith, trimStart, hliteral, String.toList_ofList]

theorem isSection_trim (line : String) : isSection (Json.trim line) = isSection line := by
  obtain ⟨blanks, hblanks, heq⟩ := exists_strip_append Json.isWhitespace line.toList
  rw [isSection_eq, isSection_eq, toList_trim, dropWhile_strip, heq,
    isPrefixOf_append_blanks plain_bracket hblanks]

theorem isTopLevelKey_eq (line key : String) :
    isTopLevelKey line key =
      (key.toList.isPrefixOf (line.toList.dropWhile Json.isWhitespace) &&
        ['='].isPrefixOf (((line.toList.dropWhile Json.isWhitespace).drop
          key.toList.length).dropWhile Json.isWhitespace)) := by
  unfold isTopLevelKey Json.stripPrefix
  rw [trimStart, String.toList_ofList]
  split
  next rest hrest =>
    split at hrest
    next hstart =>
      obtain rfl := Option.some.inj hrest
      have hliteral : "=".toList = ['='] := by simp
      rw [hstart, Bool.true_and, Json.startsWith, trimStart, hliteral]
      simp only [String.toList_ofList]
    next => cases hrest
  next hnone =>
    split at hnone
    next => cases hnone
    next hstart => simp [hstart]

theorem isTopLevelKey_trim {key : String} (hkey : Plain key)
    (line : String) : isTopLevelKey (Json.trim line) key = isTopLevelKey line key := by
  obtain ⟨blanks, hblanks, heq⟩ := exists_strip_append Json.isWhitespace line.toList
  rw [isTopLevelKey_eq, isTopLevelKey_eq, toList_trim, dropWhile_strip, heq,
    isPrefixOf_append_blanks hkey hblanks]
  cases hprefix : key.toList.isPrefixOf (strip Json.isWhitespace line.toList) with
  | false => rfl
  | true =>
      have hle := (List.isPrefixOf_iff_prefix.mp hprefix).length_le
      rw [List.drop_append_of_le_length hle,
        isPrefixOf_dropWhile_append_blanks plain_equals hblanks]

/-! ## Lines of a text that is put together -/

/-- None of the lines holds a newline. -/
def Unbroken (lines : List String) : Prop := ∀ line ∈ lines, '\n' ∉ line.toList

theorem splitNewlines_eq (text : List Char) :
    Feeds.ClaudeState.splitNewlines text = text.splitOn '\n' := by
  induction text with
  | nil => rfl
  | cons c text ih =>
      rw [Feeds.ClaudeState.splitNewlines, ih, List.splitOn_cons_eq_if_modifyHead]
      split
      next hnil => exact absurd hnil (List.splitOn_ne_nil _ _)
      next line lines hsplit =>
        by_cases hc : c = '\n'
        · simp [hc, hsplit]
        · simp [hc, hsplit]

/-- A line that is read: without the carriage return at its end. -/
def withoutReturn (line : String) : String :=
  if line.toList.getLast? = some '\r' then String.ofList line.toList.dropLast else line

theorem trim_withoutReturn (line : String) : Json.trim (withoutReturn line) = Json.trim line := by
  unfold withoutReturn
  split
  next hlast =>
    apply String.toList_inj.mp
    obtain ⟨front, hfront⟩ := List.getLast?_eq_some_iff.mp hlast
    rw [toList_trim, toList_trim, String.toList_ofList, hfront, List.dropLast_concat,
      strip_concat (by decide)]
  next => rfl

theorem unbroken_withoutReturn {lines : List String} (h : Unbroken lines) :
    Unbroken (lines.map withoutReturn) := by
  intro read hread
  obtain ⟨line, hline, rfl⟩ := List.mem_map.mp hread
  rw [withoutReturn]
  split
  · rw [String.toList_ofList]
    exact fun hmem => h line hline (List.mem_of_mem_dropLast hmem)
  · exact h line hline

/-- The lines of a text put together of lines: the last one is read if there is something in
it. -/
theorem textLines_joinLines {lines : List String} {last : String}
    (h : Unbroken (lines ++ [last])) :
    textLines (joinLines (lines ++ [last])) =
      lines.map withoutReturn ++ if last = "" then [] else [last] := by
  have hpieces : (joinLines (lines ++ [last])).toList.splitOn '\n' =
      (lines ++ [last]).map String.toList := by
    rw [joinLines, String.toList_ofList]
    refine List.splitOn_intercalate _ (fun piece hpiece => ?_) (by simp)
    obtain ⟨line, hline, rfl⟩ := List.mem_map.mp hpiece
    exact h line hline
  have hlist : (lines ++ [last]).map String.toList = lines.map String.toList ++ [last.toList] := by
    rw [List.map_append, List.map_singleton]
  rw [textLines, splitNewlines_eq, hpieces, hlist, List.dropLast_concat, List.getLast?_concat,
    List.map_append, List.map_map, List.map_map]
  refine congrArg₂ (· ++ ·) ?_ ?_
  · refine List.map_congr_left fun line _ => ?_
    simp only [Function.comp_apply, withoutReturn]
    split
    · rfl
    · exact String.ofList_toList
  · by_cases hlast : last = ""
    · simp [hlast]
    · have hne : last.toList ≠ [] := fun hnil => hlast (String.toList_eq_nil_iff.mp hnil)
      simp [hlast, hne]

/-- The lines of the file as they are compared. -/
def settings (content : String) : List String := (textLines content).map Json.trim

theorem settings_joinLines {lines : List String} (h : Unbroken lines) {last : String}
    (hlast : lines.getLast? = some last) (hne : last ≠ "") :
    settings (joinLines lines) = lines.map Json.trim := by
  obtain ⟨lines, rfl⟩ := List.getLast?_eq_some_iff.mp hlast
  have htrim : lines.map (Json.trim ∘ withoutReturn) = lines.map Json.trim :=
    List.map_congr_left fun line _ => trim_withoutReturn line
  rw [settings, textLines_joinLines h, if_neg hne, List.map_append, List.map_append, List.map_map,
    htrim]

theorem settings_joinLines_concat {lines : List String} (h : Unbroken lines) :
    settings (joinLines (lines ++ [""])) = lines.map Json.trim := by
  have hunbroken : Unbroken (lines ++ [""]) := by
    intro line hline
    rcases List.mem_append.mp hline with hline | hline
    · exact h line hline
    · rw [List.mem_singleton.mp hline]
      simp
  rw [settings, textLines_joinLines hunbroken, if_pos rfl, List.append_nil, List.map_map]
  exact List.map_congr_left fun line _ => trim_withoutReturn line

/-! ## The line that is replaced -/

theorem replaceLines_replaced (newModel : String) (lines : List String) (inSection : Bool) :
    replaceLines newModel lines inSection true = (lines, true) := by
  induction lines generalizing inSection with
  | nil => rfl
  | cons line lines ih => simp [replaceLines, ih]

theorem replaceLines_inSection (newModel : String) (lines : List String) (replaced : Bool) :
    replaceLines newModel lines true replaced = (lines, replaced) := by
  induction lines with
  | nil => rfl
  | cons line lines ih => simp [replaceLines, ih]

/-- The lines before the first section. -/
def topLevel (lines : List String) : List String := lines.takeWhile fun line => !isSection line

theorem topLevel_cons_of_section {line : String} (h : isSection line = true)
    (lines : List String) : topLevel (line :: lines) = [] :=
  List.takeWhile_cons_of_neg (by simp [h])

theorem topLevel_cons {line : String} (h : isSection line = false) (lines : List String) :
    topLevel (line :: lines) = line :: topLevel lines :=
  List.takeWhile_cons_of_pos (by simp [h])

theorem topLevel_append {before : List String} (h : ∀ line ∈ before, isSection line = false)
    (lines : List String) : topLevel (before ++ lines) = before ++ topLevel lines :=
  List.takeWhile_append_of_pos (by simpa using h)

/-- A line before the first section names no model. -/
def NoModel (lines : List String) : Prop :=
  ∀ line ∈ lines, isTopLevelKey line "model" = false

/-- Either there is no model before the first section, or the first one is replaced. -/
theorem replaceLines_cases (newModel : String) (lines : List String) :
    (NoModel (topLevel lines) ∧ replaceLines newModel lines false false = (lines, false)) ∨
      ∃ before line after, lines = before ++ line :: after ∧
        (∀ earlier ∈ before, isSection earlier = false) ∧ NoModel before ∧
        isSection line = false ∧ isTopLevelKey line "model" = true ∧
        replaceLines newModel lines false false =
          (before ++ modelLine newModel :: after, true) := by
  induction lines with
  | nil => exact Or.inl ⟨by simp [NoModel, topLevel], rfl⟩
  | cons line lines ih =>
      cases hsection : isSection line with
      | true =>
          refine Or.inl ⟨fun earlier hearlier => ?_, ?_⟩
          · simp [topLevel, hsection] at hearlier
          · simp [replaceLines, hsection, replaceLines_inSection]
      | false =>
          cases hkey : isTopLevelKey line "model" with
          | true =>
              refine Or.inr ⟨[], line, lines, rfl, by simp, by simp [NoModel], hsection, hkey, ?_⟩
              simp [replaceLines, hsection, hkey, replaceLines_replaced]
          | false =>
              rcases ih with ⟨hnone, hreplaced⟩ | ⟨before, found, after, rfl, hbefore, hnone,
                hfound, hmodel, hreplaced⟩
              · refine Or.inl ⟨?_, by simp [replaceLines, hsection, hkey, hreplaced]⟩
                rw [topLevel_cons hsection]
                exact List.forall_mem_cons.mpr ⟨hkey, hnone⟩
              · refine Or.inr ⟨line :: before, found, after, rfl,
                  List.forall_mem_cons.mpr ⟨hsection, hbefore⟩,
                  List.forall_mem_cons.mpr ⟨hkey, hnone⟩, hfound, hmodel, ?_⟩
                simp [replaceLines, hsection, hkey, hreplaced]

/-- What `replace_top_level_model` makes of the lines. -/
def setModel (newModel : String) (lines : List String) : List String :=
  let replaced := replaceLines newModel lines false false
  if replaced.2 then replaced.1 else modelLine newModel :: replaced.1

theorem setModel_cases (newModel : String) (lines : List String) :
    (NoModel (topLevel lines) ∧ setModel newModel lines = modelLine newModel :: lines) ∨
      ∃ before line after, lines = before ++ line :: after ∧
        (∀ earlier ∈ before, isSection earlier = false) ∧ NoModel before ∧
        isSection line = false ∧ isTopLevelKey line "model" = true ∧
        setModel newModel lines = before ++ modelLine newModel :: after := by
  rcases replaceLines_cases newModel lines with ⟨hnone, hreplaced⟩ |
    ⟨before, line, after, hlines, hbefore, hnone, hline, hkey, hreplaced⟩
  · exact Or.inl ⟨hnone, by rw [setModel, hreplaced]; rfl⟩
  · exact Or.inr ⟨before, line, after, hlines, hbefore, hnone, hline, hkey,
      by rw [setModel, hreplaced]; rfl⟩

theorem replaceLines_append {newModel : String} {before lines : List String}
    (hbefore : ∀ line ∈ before, isSection line = false) (hnone : NoModel before) :
    replaceLines newModel (before ++ lines) false false =
      (before ++ (replaceLines newModel lines false false).1,
        (replaceLines newModel lines false false).2) := by
  induction before with
  | nil => rfl
  | cons line before ih =>
      obtain ⟨hsection, hbefore⟩ := List.forall_mem_cons.mp hbefore
      obtain ⟨hkey, hnone⟩ := List.forall_mem_cons.mp hnone
      simp [replaceLines, hsection, hkey, ih hbefore hnone]

theorem setModel_append {newModel line : String} {before after : List String}
    (hbefore : ∀ line ∈ before, isSection line = false) (hnone : NoModel before)
    (hsection : isSection line = false) (hkey : isTopLevelKey line "model" = true) :
    setModel newModel (before ++ line :: after) = before ++ modelLine newModel :: after := by
  rw [setModel, replaceLines_append hbefore hnone]
  simp [replaceLines, hsection, hkey, replaceLines_replaced]

theorem setModel_ne_nil (newModel : String) (lines : List String) :
    setModel newModel lines ≠ [] := by
  rcases setModel_cases newModel lines with ⟨-, hset⟩ |
    ⟨before, line, after, -, -, -, -, -, hset⟩ <;> simp [hset]

theorem toList_modelLine (newModel : String) :
    (modelLine newModel).toList = "model = ".toList ++ ('"' :: (newModel.toList ++ ['"'])) := by
  simp [modelLine]

theorem trim_modelLine (newModel : String) :
    Json.trim (modelLine newModel) = modelLine newModel := by
  apply String.toList_inj.mp
  rw [toList_trim]
  apply strip_eq_self
  · rw [toList_modelLine]
    simp [Json.isWhitespace]
  · have hlast : (modelLine newModel).toList.getLast? = some '"' := by
      rw [toList_modelLine]
      simp [List.getLast?_append, List.getLast?_cons]
    rw [hlast]
    simp [Json.isWhitespace]

theorem dropWhile_modelLine (newModel : String) :
    (modelLine newModel).toList.dropWhile Json.isWhitespace = (modelLine newModel).toList := by
  refine dropWhile_eq_self_of_head ?_
  rw [toList_modelLine]
  simp [Json.isWhitespace]

theorem isSection_modelLine (newModel : String) : isSection (modelLine newModel) = false := by
  rw [isSection_eq, dropWhile_modelLine, toList_modelLine]
  simp [List.isPrefixOf]

theorem isTopLevelKey_modelLine (newModel : String) :
    isTopLevelKey (modelLine newModel) "model" = true := by
  rw [isTopLevelKey_eq, dropWhile_modelLine, toList_modelLine]
  simp [List.isPrefixOf, Json.isWhitespace]

/-- Only the last model that is written counts. -/
theorem setModel_setModel (newModel other : String) (lines : List String) :
    setModel newModel (setModel other lines) = setModel newModel lines := by
  rcases setModel_cases other lines with ⟨hnone, hset⟩ |
    ⟨before, line, after, rfl, hbefore, hnone, hsection, hkey, hset⟩
  · rw [hset]
    have hfirst : setModel newModel ([] ++ modelLine other :: lines) =
        [] ++ modelLine newModel :: lines :=
      setModel_append (by simp) (by simp [NoModel]) (isSection_modelLine other)
        (isTopLevelKey_modelLine other)
    rcases setModel_cases newModel lines with ⟨-, hagain⟩ |
      ⟨before, line, after, rfl, hbefore, -, hsection, hkey, -⟩
    · rw [hagain]
      exact hfirst
    · have hmem : line ∈ topLevel (before ++ line :: after) := by
        rw [topLevel_append hbefore, topLevel_cons hsection]
        simp
      rw [hnone line hmem] at hkey
      cases hkey
  · rw [hset, setModel_append hbefore hnone (isSection_modelLine other)
      (isTopLevelKey_modelLine other), setModel_append hbefore hnone hsection hkey]

theorem plain_model : Plain "model" := by
  simp [Plain, Json.isWhitespace]

theorem replaceLines_map_trim (newModel : String) (lines : List String)
    (inSection replaced : Bool) :
    replaceLines newModel (lines.map Json.trim) inSection replaced =
      ((replaceLines newModel lines inSection replaced).1.map Json.trim,
        (replaceLines newModel lines inSection replaced).2) := by
  induction lines generalizing inSection replaced with
  | nil => rfl
  | cons line lines ih =>
      rw [List.map_cons, replaceLines, replaceLines, isSection_trim, isTopLevelKey_trim plain_model]
      simp only [ih]
      split
      · simp [trim_modelLine]
      · simp

theorem setModel_map_trim (newModel : String) (lines : List String) :
    setModel newModel (lines.map Json.trim) = (setModel newModel lines).map Json.trim := by
  simp only [setModel, replaceLines_map_trim]
  split
  · rfl
  · rw [List.map_cons, trim_modelLine]

/-! ## The file that is written -/

theorem newline_notMem_of_mem_splitOn {text piece : List Char} (h : piece ∈ text.splitOn '\n') :
    '\n' ∉ piece := by
  induction text generalizing piece with
  | nil =>
      obtain rfl : piece = [] := by simpa using h
      exact List.not_mem_nil
  | cons c text ih =>
      rw [List.splitOn_cons_eq_if_modifyHead] at h
      obtain ⟨first, pieces, hsplit⟩ := List.exists_cons_of_ne_nil (List.splitOn_ne_nil '\n' text)
      rw [hsplit] at h ih
      split at h
      next =>
        rcases List.mem_cons.mp h with rfl | h
        · exact List.not_mem_nil
        · exact ih h
      next hc =>
        rw [List.modifyHead_cons] at h
        rcases List.mem_cons.mp h with rfl | h
        · rw [List.mem_cons]
          rintro (rfl | hmem)
          · exact hc (beq_self_eq_true _)
          · exact ih List.mem_cons_self hmem
        · exact ih (List.mem_cons_of_mem _ h)

/-- A text is put together of its lines, with an empty one behind a newline at the end. -/
theorem exists_lines (content : String) :
    ∃ lines last, Unbroken (lines ++ [last]) ∧ content = joinLines (lines ++ [last]) := by
  have hjoin : content = joinLines ((content.toList.splitOn '\n').map String.ofList) := by
    rw [joinLines, List.map_map]
    simp [Function.comp_def]
  obtain ⟨lines, last, hlines⟩ := List.eq_nil_or_concat'
    ((content.toList.splitOn '\n').map String.ofList) |>.resolve_left (by simp)
  have hunbroken : Unbroken ((content.toList.splitOn '\n').map String.ofList) := by
    intro line hline
    obtain ⟨piece, hpiece, rfl⟩ := List.mem_map.mp hline
    rw [String.toList_ofList]
    exact newline_notMem_of_mem_splitOn hpiece
  rw [hlines] at hjoin hunbroken
  exact ⟨lines, last, hunbroken, hjoin⟩

theorem toList_joinLines_concat {lines : List String} (h : lines ≠ []) (last : String) :
    (joinLines (lines ++ [last])).toList = (joinLines lines).toList ++ '\n' :: last.toList := by
  induction lines with
  | nil => exact absurd rfl h
  | cons line lines ih =>
      cases lines with
      | nil => simp [joinLines]
      | cons next lines =>
          have hrest := ih (by simp)
          simp only [joinLines, String.toList_ofList, List.cons_append, List.map_cons,
            List.intercalate_cons_cons] at hrest ⊢
          rw [hrest]
          simp

theorem endsWith_joinLines_concat_empty {lines : List String} (h : lines ≠ []) :
    endsWith (joinLines (lines ++ [""])) "\n" = true := by
  rw [endsWith, toList_joinLines_concat h]
  simp

theorem endsWith_joinLines_concat {lines : List String} {last : String}
    (h : Unbroken (lines ++ [last])) (hne : last ≠ "") :
    endsWith (joinLines (lines ++ [last])) "\n" = false := by
  have hend : ∃ front, (joinLines (lines ++ [last])).toList = front ++ last.toList := by
    by_cases hlines : lines = []
    · exact ⟨[], by simp [hlines, joinLines]⟩
    · refine ⟨(joinLines lines).toList ++ ['\n'], ?_⟩
      rw [toList_joinLines_concat hlines]
      simp
  obtain ⟨front, hfront⟩ := hend
  have hlast : last.toList ≠ [] := fun hnil => hne (String.toList_eq_nil_iff.mp hnil)
  obtain ⟨start, c, hc⟩ := (List.eq_nil_or_concat' last.toList).resolve_left hlast
  have hnot : '\n' ∉ last.toList := h last (by simp)
  rw [endsWith, hfront, hc, Bool.eq_false_iff]
  intro hsuffix
  have hliteral : "\n".toList = ['\n'] := by simp
  rw [hliteral, List.isSuffixOf_iff_suffix, ← List.append_assoc] at hsuffix
  obtain ⟨others, heq⟩ := hsuffix
  have hcn : '\n' = c := by simpa using (List.append_inj' heq rfl).2
  rw [hc, hcn] at hnot
  exact hnot (List.mem_append_right _ (List.mem_singleton_self _))

theorem joinLines_concat_empty {lines : List String} (h : lines ≠ []) :
    joinLines (lines ++ [""]) = joinLines lines ++ "\n" := by
  apply String.toList_inj.mp
  rw [toList_joinLines_concat h]
  simp

theorem joinLines_cons {lines : List String} (h : lines ≠ []) (line : String) :
    joinLines (line :: lines) = line ++ "\n" ++ joinLines lines := by
  obtain ⟨next, lines, rfl⟩ := List.exists_cons_of_ne_nil h
  apply String.toList_inj.mp
  simp [joinLines]

theorem unbroken_setModel {newModel : String} (hmodel : '\n' ∉ newModel.toList)
    {lines : List String} (h : Unbroken lines) : Unbroken (setModel newModel lines) := by
  have hline : '\n' ∉ (modelLine newModel).toList := by
    rw [toList_modelLine]
    simp [hmodel]
  rcases setModel_cases newModel lines with ⟨-, hset⟩ |
    ⟨before, line, after, rfl, -, -, -, -, hset⟩
  · rw [hset]
    exact List.forall_mem_cons.mpr ⟨hline, h⟩
  · rw [hset]
    intro written hwritten
    rcases List.mem_append.mp hwritten with hbefore | hafter
    · exact h written (List.mem_append_left _ hbefore)
    · rcases List.mem_cons.mp hafter with rfl | hafter
      · exact hline
      · exact h written (List.mem_append_right _ (List.mem_cons_of_mem _ hafter))

/-- The last line that is written is not empty if the last one that was read is not. -/
theorem getLast?_setModel {newModel last : String} {lines : List String}
    (hlast : lines.getLast? = some last) (hne : last ≠ "") :
    ∃ written, (setModel newModel lines).getLast? = some written ∧ written ≠ "" := by
  have hmodel : modelLine newModel ≠ "" := by
    intro hempty
    have hlist := toList_modelLine newModel
    rw [hempty] at hlist
    simp at hlist
  rcases setModel_cases newModel lines with ⟨-, hset⟩ |
    ⟨before, line, after, rfl, -, -, -, -, hset⟩
  · refine ⟨last, ?_, hne⟩
    rw [hset, List.getLast?_cons, hlast]
    rfl
  · rw [hset]
    rw [List.getLast?_append, List.getLast?_cons] at hlast ⊢
    cases hafter : after.getLast? with
    | none => exact ⟨modelLine newModel, rfl, hmodel⟩
    | some written =>
        rw [hafter] at hlast
        obtain rfl : written = last := by simpa using hlast
        exact ⟨written, rfl, hne⟩

/-- The text before the newline that may follow. -/
theorem replaced_eq (newModel : String) {lines : List String} (h : lines ≠ []) :
    (if (replaceLines newModel lines false false).2 then
        joinLines (replaceLines newModel lines false false).1
      else modelLine newModel ++ "\n" ++ joinLines (replaceLines newModel lines false false).1) =
      joinLines (setModel newModel lines) := by
  rw [setModel]
  rcases replaceLines_cases newModel lines with ⟨-, hreplaced⟩ |
    ⟨before, line, after, rfl, -, -, -, -, hreplaced⟩
  · rw [hreplaced]
    exact (joinLines_cons h _).symm
  · rw [hreplaced]
    rfl

/-- The lines of the file that is written are those of the file that was read, with the
model. -/
theorem settings_replaceTopLevelModel (content : String) {newModel : String}
    (hmodel : '\n' ∉ newModel.toList) :
    settings (replaceTopLevelModel content newModel) = setModel newModel (settings content) := by
  obtain ⟨lines, last, hunbroken, rfl⟩ := exists_lines content
  have hread := textLines_joinLines hunbroken
  have hlines : Unbroken (lines.map withoutReturn) :=
    unbroken_withoutReturn fun line hline => hunbroken line (List.mem_append_left _ hline)
  have hsettings : settings (joinLines (lines ++ [last])) =
      (lines.map withoutReturn ++ if last = "" then [] else [last]).map Json.trim := by
    rw [settings, hread]
  rw [hsettings, setModel_map_trim, replaceTopLevelModel, hread]
  by_cases hlast : last = ""
  · subst hlast
    rw [if_pos rfl, List.append_nil]
    have hwritten := unbroken_setModel hmodel hlines
    by_cases hempty : lines = []
    · -- an empty file: the newline behind the model is the last thing in it
      subst hempty
      have hout : modelLine newModel ++ "\n" ++ joinLines [] =
          joinLines ([modelLine newModel] ++ [""]) := by
        apply String.toList_inj.mp
        simp [joinLines]
      have hends : endsWith (joinLines ([] ++ [""])) "\n" = false := by
        simp [endsWith, joinLines]
      simp only [List.map_nil, replaceLines, Bool.false_eq_true, if_false, hends]
      rw [hout]
      exact settings_joinLines_concat hwritten
    · have hne : lines.map withoutReturn ≠ [] := by simpa using hempty
      simp only [endsWith_joinLines_concat_empty hempty, if_true]
      rw [replaced_eq newModel hne, ← joinLines_concat_empty (setModel_ne_nil _ _)]
      exact settings_joinLines_concat hwritten
  · rw [if_neg hlast]
    have hread : Unbroken (lines.map withoutReturn ++ [last]) := by
      intro line hline
      rcases List.mem_append.mp hline with hline | hline
      · exact hlines line hline
      · exact hunbroken line (List.mem_append_right _ hline)
    have hlastRead : (lines.map withoutReturn ++ [last]).getLast? = some last :=
      List.getLast?_concat
    obtain ⟨written, hwritten, hne⟩ :
        ∃ written, (setModel newModel (lines.map withoutReturn ++ [last])).getLast? = some written ∧
          written ≠ "" := getLast?_setModel hlastRead hlast
    simp only [endsWith_joinLines_concat hunbroken hlast, Bool.false_eq_true, if_false]
    rw [replaced_eq newModel (by simp)]
    exact settings_joinLines (unbroken_setModel hmodel hread) hwritten hne

/-! ## What is read -/

/-- The last value of a key in some lines. -/
def lastValue (key : String) (lines : List String) : Option String :=
  lines.reverse.findSome? fun line => parseTomlKv line key

theorem lastValue_append (key : String) (lines later : List String) :
    lastValue key (lines ++ later) = (lastValue key later).or (lastValue key lines) := by
  simp [lastValue, List.findSome?_append]

theorem lastValue_cons (key line : String) (lines : List String) :
    lastValue key (line :: lines) = (lastValue key lines).or (parseTomlKv line key) := by
  have hsingle : lastValue key [line] = parseTomlKv line key := by simp [lastValue]
  rw [← List.singleton_append, lastValue_append, hsingle]

theorem readLine_inSection (lines : List String) {config : CodexConfig}
    (h : config.inSection = true) : lines.foldl readLine config = config := by
  induction lines with
  | nil => rfl
  | cons line lines ih =>
      have hkept : readLine config line = config := by
        obtain ⟨model, effort, inSection⟩ := config
        obtain rfl : inSection = true := h
        simp [readLine]
      rw [List.foldl_cons, hkept, ih]

theorem startsWith_trim (line : String) :
    Json.startsWith (Json.trim line) "[" = isSection line := by
  rw [← isSection_trim, isSection, trimStart_trim]

theorem foldl_readLine (lines : List String) {config : CodexConfig}
    (h : config.inSection = false) :
    (lines.foldl readLine config).model =
        (lastValue "model" (topLevel (lines.map Json.trim))).or config.model ∧
      (lines.foldl readLine config).effort =
        (lastValue "model_reasoning_effort" (topLevel (lines.map Json.trim))).or config.effort := by
  induction lines generalizing config with
  | nil => simp [topLevel, lastValue]
  | cons line lines ih =>
      rw [List.foldl_cons, List.map_cons]
      have htrim := isSection_trim line
      cases hsection : isSection line with
      | true =>
          have hread : readLine config line = { config with inSection := true } := by
            simp [readLine, startsWith_trim, hsection]
          rw [hread, readLine_inSection lines rfl,
            topLevel_cons_of_section (htrim.trans hsection)]
          simp [lastValue]
      | false =>
          have hread : readLine config line =
              { config with
                model := (parseTomlKv (Json.trim line) "model").or config.model
                effort :=
                  (parseTomlKv (Json.trim line) "model_reasoning_effort").or config.effort } := by
            simp [readLine, startsWith_trim, hsection, h]
          have hkept : (readLine config line).inSection = false := by
            rw [hread]
            exact h
          obtain ⟨hmodel, heffort⟩ := ih hkept
          rw [topLevel_cons (htrim.trans hsection), lastValue_cons, lastValue_cons,
            Option.or_assoc, Option.or_assoc, hmodel, heffort, hread]
          simp only [and_self]

/-- The lines of the file that is there, if it is. -/
def settingsOf (file : Option String) : List String := settings (file.getD "")

theorem readCodexConfig_eq (file : Option String) :
    readCodexConfig file =
      (lastValue "model" (topLevel (settingsOf file)),
        lastValue "model_reasoning_effort" (topLevel (settingsOf file))) := by
  cases file with
  | none =>
      have hlines : textLines "" = [] := by
        simp [textLines, Feeds.ClaudeState.splitNewlines]
      have hempty : settingsOf none = [] := by
        rw [settingsOf, Option.getD_none, settings, hlines, List.map_nil]
      rw [hempty]
      simp [readCodexConfig, topLevel, lastValue]
  | some content =>
      have hstart : (⟨none, none, false⟩ : CodexConfig).inSection = false := rfl
      obtain ⟨hmodel, heffort⟩ := foldl_readLine (textLines content) hstart
      rw [Option.or_none] at hmodel heffort
      rw [readCodexConfig, hmodel, heffort, settingsOf, Option.getD_some, settings]

theorem stripPrefix_eq_some {text start rest : String}
    (h : Json.stripPrefix text start = some rest) :
    text.toList = start.toList ++ rest.toList := by
  unfold Json.stripPrefix at h
  split at h
  next hprefix =>
    obtain ⟨others, hothers⟩ := List.isPrefixOf_iff_prefix.mp hprefix
    obtain rfl := Option.some.inj h
    rw [String.toList_ofList, ← hothers, List.drop_left]
  next => cases h

theorem stripPrefix_append {text start : String} {rest : List Char}
    (h : text.toList = start.toList ++ rest) :
    Json.stripPrefix text start = some (String.ofList rest) := by
  have hprefix : start.toList.isPrefixOf text.toList = true := by
    rw [h, List.isPrefixOf_iff_prefix]
    exact List.prefix_append _ _
  rw [Json.stripPrefix, if_pos hprefix, h, List.drop_left]

/-- A line with a value for the model names it. -/
theorem isTopLevelKey_of_parseTomlKv {line value : String}
    (h : parseTomlKv line "model" = some value) : isTopLevelKey line "model" = true := by
  obtain ⟨rest, hrest, -⟩ := Option.map_eq_some_iff.mp h
  have hline := stripPrefix_eq_some hrest
  rw [isTopLevelKey_eq, hline]
  simp [List.isPrefixOf, Json.isWhitespace]

/-- A line that names the model has no value for the effort. -/
theorem parseTomlKv_effort {line : String} (h : isTopLevelKey line "model" = true) :
    parseTomlKv line "model_reasoning_effort" = none := by
  rw [parseTomlKv, Option.map_eq_none_iff]
  by_contra hsome
  obtain ⟨rest, hrest⟩ := Option.ne_none_iff_exists'.mp hsome
  have hline := stripPrefix_eq_some hrest
  rw [isTopLevelKey_eq, hline] at h
  simp [List.isPrefixOf, Json.isWhitespace] at h

theorem parseTomlKv_modelLine (newModel : String) :
    parseTomlKv (modelLine newModel) "model" = some newModel := by
  have hstrip : Json.stripPrefix (modelLine newModel) ("model" ++ " = ") =
      some (String.ofList ('"' :: (newModel.toList ++ ['"']))) := by
    apply stripPrefix_append
    rw [toList_modelLine]
    simp
  have htrim : Json.trim (String.ofList ('"' :: (newModel.toList ++ ['"']))) =
      String.ofList ('"' :: (newModel.toList ++ ['"'])) := by
    apply String.toList_inj.mp
    rw [toList_trim, String.toList_ofList]
    apply strip_eq_self <;> simp [Json.isWhitespace, List.getLast?_cons]
  rw [parseTomlKv, hstrip, Option.map_some, htrim]
  simp [isQuoted, unquoted, Json.startsWith, endsWith]

/-- The value of the model that stands behind the first line that names one. -/
def laterModel (lines : List String) : Option String :=
  lastValue "model"
    ((topLevel lines).dropWhile fun line => !isTopLevelKey line "model").tail

theorem lastValue_of_noModel {lines : List String} (h : NoModel lines) :
    lastValue "model" lines = none := by
  rw [lastValue, List.findSome?_eq_none_iff]
  intro line hline
  by_contra hsome
  obtain ⟨value, hvalue⟩ := Option.ne_none_iff_exists'.mp hsome
  have hkey := h line (List.mem_reverse.mp hline)
  rw [isTopLevelKey_of_parseTomlKv hvalue] at hkey
  cases hkey

/-- What is read of lines with a model that was written: the model, unless another one stands
behind it, and the effort as before. -/
theorem lastValue_setModel (newModel : String) (lines : List String) :
    lastValue "model" (topLevel (setModel newModel lines)) =
        some ((laterModel lines).getD newModel) ∧
      lastValue "model_reasoning_effort" (topLevel (setModel newModel lines)) =
        lastValue "model_reasoning_effort" (topLevel lines) := by
  have hkeyed := parseTomlKv_effort (isTopLevelKey_modelLine newModel)
  rcases setModel_cases newModel lines with ⟨hnone, hset⟩ |
    ⟨before, line, after, rfl, hbefore, hnone, hsection, hkey, hset⟩
  · have hdropped : (topLevel lines).dropWhile (fun line => !isTopLevelKey line "model") = [] :=
      List.dropWhile_eq_nil_iff.mpr fun line hline => by simp [hnone line hline]
    rw [hset, topLevel_cons (isSection_modelLine newModel), lastValue_cons, lastValue_cons,
      lastValue_of_noModel hnone, parseTomlKv_modelLine, hkeyed, laterModel, hdropped]
    simp [lastValue]
  · have hdropped : (before ++ line :: topLevel after).dropWhile
        (fun line => !isTopLevelKey line "model") = line :: topLevel after := by
      rw [List.dropWhile_append_of_pos fun earlier hearlier => by simp [hnone earlier hearlier],
        List.dropWhile_cons_of_neg (by simp [hkey])]
    rw [hset, topLevel_append hbefore, topLevel_append hbefore,
      topLevel_cons (isSection_modelLine newModel), topLevel_cons hsection, lastValue_append,
      lastValue_append, lastValue_append, lastValue_cons, lastValue_cons, lastValue_cons,
      parseTomlKv_modelLine, hkeyed, parseTomlKv_effort hkey, laterModel, topLevel_append hbefore,
      topLevel_cons hsection, hdropped, List.tail_cons]
    refine ⟨?_, rfl⟩
    cases lastValue "model" (topLevel after) <;> simp

/-! ## Runs -/

/-- The model that a press leaves in the file, if it does. -/
def ModelPress.stored (press : ModelPress) : Option String :=
  if press.writable then (press.printed.bind selectedModel).toOption else none

theorem newline_notMem_of_stored {press : ModelPress} {newModel : String}
    (h : press.stored = some newModel) : '\n' ∉ newModel.toList := by
  have hfeatured : ∀ model ∈ featuredModels, '\n' ∉ model.toList := by simp [featuredModels]
  unfold ModelPress.stored at h
  split at h
  next =>
    cases hprinted : press.printed with
    | error error => simp [hprinted, Except.bind, Except.toOption] at h
    | ok stdout =>
        simp only [hprinted, Except.bind, selectedModel] at h
        split at h
        next model hfound =>
          obtain rfl : model = newModel := by simpa [Except.toOption] using h
          exact hfeatured model (List.mem_of_find?_eq_some hfound)
        next => cases h
  next => cases h

theorem settingsOf_cycleModel {press : ModelPress} (hreadable : press.readable = true)
    (file : Option String) :
    settingsOf (cycleModel press file).2 = match press.stored with
      | some newModel => setModel newModel (settingsOf file)
      | none => settingsOf file := by
  have hnewline : ∀ {newModel}, press.stored = some newModel → '\n' ∉ newModel.toList :=
    fun h => newline_notMem_of_stored h
  unfold cycleModel
  unfold ModelPress.stored at hnewline ⊢
  cases hwritable : press.writable with
  | false =>
      cases press.printed.bind selectedModel with
      | error error => rfl
      | ok newModel => simp [persistDefaultModel, hwritable]
  | true =>
      rw [hwritable, if_pos rfl] at hnewline
      cases hprinted : press.printed.bind selectedModel with
      | error error => rfl
      | ok newModel =>
          have hnot : '\n' ∉ newModel.toList := hnewline (by rw [hprinted]; rfl)
          simp only [persistDefaultModel, hreadable, hwritable, if_true, Except.toOption]
          exact settings_replaceTopLevelModel (file.getD "") hnot

theorem settingsOf_cycleModels {presses : List ModelPress} (file : Option String)
    (h : ∀ press ∈ presses, press.readable = true) :
    settingsOf (cycleModels presses file) =
      match (presses.filterMap ModelPress.stored).getLast? with
      | none => settingsOf file
      | some newModel => setModel newModel (settingsOf file) := by
  induction presses using List.reverseRecOn with
  | nil => rfl
  | append_singleton presses press ih =>
      obtain ⟨hbefore, hlast⟩ := List.forall_mem_append.mp h
      have hcycled : cycleModels (presses ++ [press]) file =
          (cycleModel press (cycleModels presses file)).2 := by
        rw [cycleModels, Library.runFrom_append]
        rfl
      rw [hcycled, settingsOf_cycleModel (hlast press (List.mem_singleton_self press)),
        ih hbefore, List.filterMap_append, List.getLast?_append]
      cases hstored : press.stored with
      | none => simp [hstored]
      | some newModel =>
          cases (presses.filterMap ModelPress.stored).getLast? with
          | none => simp [hstored]
          | some other => simp [hstored, setModel_setModel]

/-- However often the model key is pressed: the lines of the configuration, blanks around them
aside, are those it had, with the model of the last press that was stored in place of the first
one before the sections, or in front if there was none.  What the bridge reads then is that
model, unless another line before the sections names one behind it, and the effort as it was. -/
theorem cycled_model_read {presses : List ModelPress} (file : Option String)
    (h : ∀ press ∈ presses, press.readable = true) :
    let cycled := cycleModels presses file
    match (presses.filterMap ModelPress.stored).getLast? with
    | none =>
        settingsOf cycled = settingsOf file ∧ readCodexConfig cycled = readCodexConfig file
    | some newModel =>
        settingsOf cycled = setModel newModel (settingsOf file) ∧
          readCodexConfig cycled =
            (some ((laterModel (settingsOf file)).getD newModel), (readCodexConfig file).2) := by
  intro cycled
  have hsettings := settingsOf_cycleModels file h
  cases hlast : (presses.filterMap ModelPress.stored).getLast? with
  | none =>
      rw [hlast] at hsettings
      refine ⟨hsettings, ?_⟩
      rw [readCodexConfig_eq cycled, readCodexConfig_eq file, hsettings]
  | some newModel =>
      rw [hlast] at hsettings
      obtain ⟨hmodel, heffort⟩ := lastValue_setModel newModel (settingsOf file)
      refine ⟨hsettings, ?_⟩
      rw [readCodexConfig_eq cycled, readCodexConfig_eq file, hsettings, hmodel, heffort]

/-- The model key, pressed twice. -/
def samplePresses : List ModelPress :=
  [⟨.ok "gpt-5.6-luna", true, true⟩, ⟨.ok " gpt-5.6-sol ", true, true⟩]

def sampleConfig : Option String := some "model = 'o3'\n[x]\nmodel = 1\n"

theorem cycled_model_read_sample :
    readCodexConfig (cycleModels samplePresses sampleConfig) = (some "gpt-5.6-sol", none) ∧
      match (samplePresses.filterMap ModelPress.stored).getLast? with
      | none =>
          settingsOf (cycleModels samplePresses sampleConfig) = settingsOf sampleConfig ∧
            readCodexConfig (cycleModels samplePresses sampleConfig) =
              readCodexConfig sampleConfig
      | some newModel =>
          settingsOf (cycleModels samplePresses sampleConfig) =
              setModel newModel (settingsOf sampleConfig) ∧
            readCodexConfig (cycleModels samplePresses sampleConfig) =
              (some ((laterModel (settingsOf sampleConfig)).getD newModel),
                (readCodexConfig sampleConfig).2) := by
  have hreadable : ∀ press ∈ samplePresses, press.readable = true := by decide
  exact ⟨by decide +kernel, cycled_model_read sampleConfig hreadable⟩

end Desktop
end MicroEmu
