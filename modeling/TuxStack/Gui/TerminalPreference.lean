import TuxStack.Gui.Text
import TuxStack.Lib.Lines

/-!
# The preferred terminal

`parse_preference` and `update_preference` (`crates/gui/src/terminal.rs`): which terminal the
file of settings names, and the file with another one. A text is the list of its characters.

The two look for the section `[terminal]` and its line `application` in their own ways: the
reader takes a line apart, without its comment, and the writer looks at its beginning. What
the writer puts in its place is read again, and the other lines stay, for the files that
`Regular` describes and no others (`savesEach_iff`).
-/

namespace TuxStack.Gui.Preference

open Lines

/-! ## Terminals -/

inductive TerminalId where
  | auto
  | konsole
  | ghostty
  | kitty
  | foot
  | wezTerm
  | alacritty
  | gnomeConsole
  | gnomeTerminal
  | xfceTerminal
  | mateTerminal
  | lxTerminal
  | xTerm
deriving DecidableEq

namespace TerminalId

def all : List TerminalId :=
  [auto, konsole, ghostty, kitty, foot, wezTerm, alacritty, gnomeConsole, gnomeTerminal,
    xfceTerminal, mateTerminal, lxTerminal, xTerm]

def asStr : TerminalId → List Char
  | auto => "auto".toList
  | konsole => "konsole".toList
  | ghostty => "ghostty".toList
  | kitty => "kitty".toList
  | foot => "foot".toList
  | wezTerm => "wezterm".toList
  | alacritty => "alacritty".toList
  | gnomeConsole => "gnome-console".toList
  | gnomeTerminal => "gnome-terminal".toList
  | xfceTerminal => "xfce-terminal".toList
  | mateTerminal => "mate-terminal".toList
  | lxTerminal => "lxterminal".toList
  | xTerm => "xterm".toList

def parse (value : List Char) : Option TerminalId := all.find? fun id => id.asStr = value

end TerminalId

/-! ## Reading -/

/-- `raw_line.split('#').next().unwrap_or_default().trim()`. -/
def withoutComment (line : List Char) : List Char := trimBoth (line.takeWhile (· ≠ '#'))

/-- `str::split_once`. -/
def splitOnce (separator : Char) (text : List Char) : Option (List Char × List Char) :=
  if separator ∈ text then
    some (text.takeWhile (· ≠ separator), (text.dropWhile (· ≠ separator)).drop 1)
  else none

/-- `value.strip_prefix('"')?.strip_suffix('"')?`. -/
def unquote : List Char → Option (List Char)
  | '"' :: value => if value.getLast? = some '"' then some value.dropLast else none
  | _ => none

/-- The lines from one on, before which the section is `[terminal]` or another one. -/
def parseLines (inTerminal : Bool) : List (List Char) → Option TerminalId
  | [] => none
  | rawLine :: lines =>
    let line := withoutComment rawLine
    if line.head? = some '[' then parseLines (line = "[terminal]".toList) lines
    else if ¬ inTerminal then parseLines inTerminal lines
    else
      match splitOnce '=' line with
      | none => parseLines inTerminal lines
      | some (key, value) =>
        if trimBoth key ≠ "application".toList then parseLines inTerminal lines
        else (unquote (trimBoth value)).bind TerminalId.parse

def parsePreference (contents : List Char) : Option TerminalId := parseLines false (lines contents)

/-! ## Writing -/

/-- `line.trim() == "[terminal]"`. -/
def isTerminalHeader (line : List Char) : Bool := trimBoth line = "[terminal]".toList

/-- `line.trim_start().starts_with('[')`. -/
def opensSection (line : List Char) : Bool := (trimStart line).head? = some '['

/-- `line.trim_start().starts_with("application")`. -/
def startsApplication (line : List Char) : Bool := "application".toList <+: trimStart line

/-- `format!("application = \"{}\"", id.as_str())`. -/
def replacement (id : TerminalId) : List Char :=
  "application = \"".toList ++ id.asStr ++ ['"']

/-- `lines.join("\n")`. -/
def join (lines : List (List Char)) : List Char := List.intercalate ['\n'] lines

def updatePreference (contents : List Char) (id : TerminalId) : List Char :=
  let lines := lines contents
  match lines.findIdx? isTerminalHeader with
  | some start =>
    let stop :=
      match (lines.drop (start + 1)).findIdx? opensSection with
      | some offset => start + 1 + offset
      | none => lines.length
    let application := (List.range' (start + 1) (stop - (start + 1))).find? fun index =>
      startsApplication (lines.getD index [])
    match application with
    | some application => join (lines.set application (replacement id)) ++ ['\n']
    | none =>
      let output := join (lines.take (start + 1)) ++ '\n' :: replacement id
      (if stop < lines.length then output ++ '\n' :: join (lines.drop stop) else output) ++
        ['\n']
  | none =>
    let output := trimEnd contents
    (if output = [] then [] else output ++ "\n\n".toList) ++ "[terminal]\n".toList ++
      replacement id ++ ['\n']

/-! ## What saving should do -/

/-- A line that the reader takes for the preference, within the section. -/
def isApplication (line : List Char) : Bool :=
  (splitOnce '=' (withoutComment line)).any fun (key, _) => trimBoth key = "application".toList

/-- A line that the reader takes for the beginning of a section. -/
def isHeader (line : List Char) : Bool := (withoutComment line).head? = some '['

/-- If the reader is in the section behind a line. -/
def inTerminalAfter (inTerminal : Bool) (line : List Char) : Bool :=
  if isHeader line then withoutComment line = "[terminal]".toList else inTerminal

/-- The application line of the section `[terminal]`: where the reader finds the preference. -/
def applicationIndex (inTerminal : Bool) : List (List Char) → Option Nat
  | [] => none
  | line :: lines =>
    if ¬ isHeader line ∧ inTerminal ∧ isApplication line then some 0
    else (applicationIndex (inTerminalAfter inTerminal line) lines).map (· + 1)

/-- A line of white space. -/
def isBlank (line : List Char) : Bool := line.all isWhitespace

def dropApplication (inTerminal : Bool) (lines : List (List Char)) : List (List Char) :=
  (applicationIndex inTerminal lines).elim lines lines.eraseIdx

/-- The lines of a text apart from its application line and the blank lines at the end. -/
def otherLines (contents : List Char) : List (List Char) :=
  (dropApplication false (lines contents)).rdropWhile isBlank

/-- The preference is read back, and every other line is there, in its place among the others;
the carriage returns at the end of a line belong to its end. -/
structure Saves (contents : List Char) (id : TerminalId) : Prop where
  reads : parsePreference (updatePreference contents id) = some id
  keeps : ((otherLines contents).map content).Sublist
    ((lines (updatePreference contents id)).map content)

/-- The files in which every preference can be saved. Without a line `[terminal]`, no such
section with a comment behind its name has an application line, and no white space stands
behind the last line. With one, no application line is found before it; the first line of the
section that begins with `application` is an application line; and if there is none, the
section is empty, or blank and the last one. -/
def Regular (contents : List Char) : Prop :=
  let lines := lines contents
  match lines.findIdx? isTerminalHeader with
  | none =>
    applicationIndex false lines = none ∧
      ∀ line ∈ (lines.rdropWhile isBlank).getLast?, content line = trimEnd line
  | some start =>
    let body := (lines.drop (start + 1)).takeWhile (! opensSection ·)
    let others := (lines.drop (start + 1)).dropWhile (! opensSection ·)
    applicationIndex false (lines.take start) = none ∧
      match body.find? startsApplication with
      | some line => isApplication line = true
      | none => body = [] ∨ others = [] ∧ ∀ line ∈ body, isBlank line = true

/-! ## Lines under both tests -/

section Shapes

variable {line : List Char}

theorem withoutComment_append {c : Char} (hc : isWhitespace c = true) (line : List Char) :
    withoutComment (line ++ [c]) = withoutComment line := by
  unfold withoutComment
  have hne : c ≠ '#' := by
    rintro rfl
    exact absurd hc (by decide)
  by_cases hmem : '#' ∈ line
  · obtain ⟨front, back, rfl, hfront⟩ := List.eq_append_cons_of_mem hmem
    have hall : ∀ c ∈ front, (decide (c ≠ '#')) = true := by
      intro c hc
      exact decide_eq_true fun heq => hfront (heq ▸ hc)
    rw [List.append_assoc, List.takeWhile_append_of_pos hall, List.takeWhile_append_of_pos hall]
    simp
  · have hall : ∀ c ∈ line, (decide (c ≠ '#')) = true := by
      intro c hc
      exact decide_eq_true fun heq => hmem (heq ▸ hc)
    have hlast : [c].takeWhile (· ≠ '#') = [c] := by simp [hne]
    rw [List.takeWhile_append_of_pos hall, List.takeWhile_eq_self_iff.mpr hall, hlast,
      trimBoth_append hc]

/-- What the reader makes of a line does not depend on the white space at its end. -/
theorem withoutComment_trimEnd (line : List Char) :
    withoutComment (trimEnd line) = withoutComment line :=
  eq_of_rdropWhile (fun _ line hc => withoutComment_append hc line) line

theorem withoutComment_content (line : List Char) :
    withoutComment (content line) = withoutComment line := by
  refine eq_of_rdropWhile (fun c line hc => ?_) line
  rw [of_decide_eq_true hc]
  exact withoutComment_append (by decide) line

theorem isApplication_trimEnd (line : List Char) :
    isApplication (trimEnd line) = isApplication line := by
  rw [isApplication, withoutComment_trimEnd, ← isApplication]

theorem isHeader_trimEnd (line : List Char) : isHeader (trimEnd line) = isHeader line := by
  rw [isHeader, withoutComment_trimEnd, ← isHeader]

theorem isApplication_content (line : List Char) :
    isApplication (content line) = isApplication line := by
  rw [isApplication, withoutComment_content, ← isApplication]

theorem isBlank_iff : isBlank line = true ↔ trimEnd line = [] := by
  unfold isBlank trimEnd
  rw [List.rdropWhile_eq_nil_iff, List.all_eq_true]

theorem isBlank_content (line : List Char) : isBlank (content line) = isBlank line := by
  refine eq_of_rdropWhile (fun c line hc => ?_) line
  rw [of_decide_eq_true hc, isBlank, List.all_append, ← isBlank]
  simp [show isWhitespace '\r' = true by decide]

/-- A front part of a text begins like the text, when something is left of it. -/
theorem trimStart_of_front {front text : List Char} (h : front <+: text)
    (hne : trimStart front ≠ []) : trimStart front <+: trimStart text := by
  obtain ⟨back, rfl⟩ := h
  unfold trimStart at hne ⊢
  rw [List.dropWhile_append, if_neg (by simpa using hne)]
  exact List.prefix_append ..

/-- What is left of a line without its comment stands at the beginning of the line. -/
theorem trimStart_of_withoutComment (hne : withoutComment line ≠ []) :
    withoutComment line <+: trimStart line := by
  have hfront : withoutComment line <+: trimStart (line.takeWhile (· ≠ '#')) :=
    List.rdropWhile_prefix ..
  refine hfront.trans (trimStart_of_front (List.takeWhile_prefix _) ?_)
  intro hnil
  rw [hnil] at hfront
  exact hne (List.prefix_nil.mp hfront)

theorem opensSection_of_isHeader (h : isHeader line = true) : opensSection line = true := by
  have hhead := of_decide_eq_true h
  have hne : withoutComment line ≠ [] := by
    rintro hnil
    rw [hnil] at hhead
    cases hhead
  obtain ⟨back, hback⟩ := trimStart_of_withoutComment hne
  unfold opensSection
  rw [← hback, List.head?_append, hhead]
  rfl

theorem exists_key (h : isApplication line = true) : ∃ key value,
    splitOnce '=' (withoutComment line) = some (key, value) ∧
      trimBoth key = "application".toList := by
  unfold isApplication at h
  cases hsplit : splitOnce '=' (withoutComment line) with
  | none => simp [hsplit] at h
  | some pair =>
    obtain ⟨key, value⟩ := pair
    rw [hsplit, Option.any_some] at h
    exact ⟨key, value, rfl, of_decide_eq_true h⟩

theorem prefix_of_splitOnce {text key value : List Char}
    (h : splitOnce '=' text = some (key, value)) :
    key <+: text := by
  unfold splitOnce at h
  split at h
  · cases h
    exact List.takeWhile_prefix _
  · cases h

/-- **The writer sees every line that the reader would take.** -/
theorem startsApplication_of_isApplication (h : isApplication line = true) :
    startsApplication line = true := by
  obtain ⟨key, value, hsplit, hkey⟩ := exists_key h
  have hfront : "application".toList <+: trimStart key := by
    rw [← hkey]
    exact List.rdropWhile_prefix ..
  have hne : trimStart key ≠ [] := by
    intro hnil
    rw [hnil] at hfront
    cases List.prefix_nil.mp hfront
  have hline : withoutComment line ≠ [] := by
    intro hnil
    rw [hnil] at hsplit
    cases hsplit
  have hwhole := (prefix_of_splitOnce hsplit).trans (trimStart_of_withoutComment hline)
  have hstart := trimStart_of_front hwhole hne
  rw [trimStart_trimStart] at hstart
  exact decide_eq_true (hfront.trans hstart)

/-- A line that begins like an application line is no beginning of a section. -/
theorem opensSection_eq_false (h : startsApplication line = true) : opensSection line = false := by
  obtain ⟨back, hback⟩ := of_decide_eq_true h
  unfold opensSection
  rw [← hback]
  rfl

theorem isBlank_eq_false (h : trimStart line ≠ []) : isBlank line = false := by
  unfold trimStart at h
  rw [← Bool.not_eq_true, isBlank, List.all_eq_true]
  exact fun hall => h (List.dropWhile_eq_nil_iff.mpr hall)

/-- A line that opens a section is neither blank nor an application line. -/
theorem isApplication_of_opens (h : opensSection line = true) : isApplication line = false := by
  rw [← Bool.not_eq_true]
  intro happlication
  rw [opensSection_eq_false (startsApplication_of_isApplication happlication)] at h
  cases h

theorem isBlank_of_opens (h : opensSection line = true) : isBlank line = false := by
  refine isBlank_eq_false fun hnil => ?_
  rw [opensSection, hnil] at h
  cases h

theorem isBlank_of_startsApplication (h : startsApplication line = true) :
    isBlank line = false := by
  refine isBlank_eq_false fun hnil => ?_
  have hstart := of_decide_eq_true h
  rw [hnil] at hstart
  cases List.prefix_nil.mp hstart

/-- **The reader sees every header that the writer takes**, which has no comment. -/
theorem withoutComment_terminal (h : isTerminalHeader line = true) :
    withoutComment line = "[terminal]".toList := by
  have htrim : trimBoth line = "[terminal]".toList := of_decide_eq_true h
  have hall : ∀ c ∈ line, (decide (c ≠ '#')) = true := by
    intro c hc
    refine decide_eq_true ?_
    rintro rfl
    have hmem := mem_trimBoth (by decide) hc
    rw [htrim] at hmem
    exact absurd hmem (by decide)
  rw [withoutComment, List.takeWhile_eq_self_iff.mpr hall, htrim]

theorem isHeader_terminal (h : isTerminalHeader line = true) : isHeader line = true := by
  rw [isHeader, withoutComment_terminal h]
  rfl

end Shapes

/-! ## Reading on -/

section Reading

variable {inTerminal : Bool} {line : List Char} {front back ls : List (List Char)}

def preferenceOf (line : List Char) : Option TerminalId :=
  (splitOnce '=' (withoutComment line)).bind fun (_, value) =>
    (unquote (trimBoth value)).bind TerminalId.parse

theorem parseLines_cons (inTerminal : Bool) (line : List Char) (ls : List (List Char)) :
    parseLines inTerminal (line :: ls) =
      if ¬ isHeader line ∧ inTerminal ∧ isApplication line then preferenceOf line
      else parseLines (inTerminalAfter inTerminal line) ls := by
  rw [parseLines]
  unfold inTerminalAfter isHeader isApplication preferenceOf
  generalize "application".toList = name
  by_cases hheader : (withoutComment line).head? = some '['
  · simp [hheader]
  · cases inTerminal with
    | false => simp [hheader]
    | true =>
      cases splitOnce '=' (withoutComment line) with
      | none => simp [hheader]
      | some pair =>
        by_cases hkey : trimBoth pair.1 = name
        · simp [hheader, hkey]
        · simp [hheader, hkey]

theorem applicationIndex_append : ∀ {inTerminal : Bool},
    applicationIndex inTerminal (front ++ back) =
      (applicationIndex inTerminal front).or
        ((applicationIndex (front.foldl inTerminalAfter inTerminal) back).map
          (· + front.length)) := by
  induction front with
  | nil =>
    intro inTerminal
    simp [applicationIndex]
  | cons line front ih =>
    intro inTerminal
    rw [List.cons_append, applicationIndex, applicationIndex]
    split
    · rfl
    · rw [ih, List.foldl_cons, Option.map_or, Option.map_map]
      congr 2

/-- What stands behind lines without an application line is read as if they were the whole
front of the text. -/
theorem parseLines_append : ∀ {inTerminal : Bool}, applicationIndex inTerminal front = none →
    parseLines inTerminal (front ++ back) =
      parseLines (front.foldl inTerminalAfter inTerminal) back := by
  induction front with
  | nil =>
    intro inTerminal _
    rfl
  | cons line front ih =>
    intro inTerminal h
    rw [applicationIndex] at h
    split at h
    · cases h
    · next hstop =>
      rw [List.cons_append, parseLines_cons, if_neg hstop, ih (Option.map_eq_none_iff.mp h)]
      rfl

/-- Nothing is read behind an application line. -/
theorem parseLines_append_of_some : ∀ {inTerminal : Bool} {k : Nat},
    applicationIndex inTerminal front = some k →
      parseLines inTerminal (front ++ back) = parseLines inTerminal front := by
  induction front with
  | nil =>
    intro inTerminal k h
    cases h
  | cons line front ih =>
    intro inTerminal k h
    rw [applicationIndex] at h
    rw [List.cons_append, parseLines_cons, parseLines_cons]
    split at h
    · next hstop => rw [if_pos hstop, if_pos hstop]
    · next hstop =>
      obtain ⟨j, hj, -⟩ := Option.map_eq_some_iff.mp h
      rw [if_neg hstop, if_neg hstop, ih hj]

theorem exists_of_applicationIndex : ∀ {inTerminal : Bool} {ls : List (List Char)} {k : Nat},
    applicationIndex inTerminal ls = some k →
      ∃ front line back, ls = front ++ line :: back ∧ front.length = k ∧
        isApplication line = true
  | _, [], _, h => by cases h
  | inTerminal, line :: ls, k, h => by
      rw [applicationIndex] at h
      split at h
      · next hstop =>
        cases h
        exact ⟨[], line, ls, rfl, rfl, hstop.2.2⟩
      · obtain ⟨j, hj, rfl⟩ := Option.map_eq_some_iff.mp h
        obtain ⟨front, found, back, rfl, rfl, happlication⟩ := exists_of_applicationIndex hj
        exact ⟨line :: front, found, back, rfl, rfl, happlication⟩

theorem applicationIndex_eq_none : ∀ {inTerminal : Bool},
    (∀ line ∈ ls, isApplication line = false) → applicationIndex inTerminal ls = none := by
  induction ls with
  | nil =>
    intro inTerminal _
    rfl
  | cons line ls ih =>
    intro inTerminal h
    rw [List.forall_mem_cons] at h
    rw [applicationIndex, if_neg (by simp [h.1]), ih h.2, Option.map_none]

theorem foldl_inTerminalAfter (h : ∀ line ∈ ls, isHeader line = false) :
    ls.foldl inTerminalAfter inTerminal = inTerminal := by
  induction ls with
  | nil => rfl
  | cons line ls ih =>
    rw [List.forall_mem_cons] at h
    rw [List.foldl_cons, inTerminalAfter, if_neg (by simp [h.1]), ih h.2]

theorem withoutComment_dropReturn (line : List Char) :
    withoutComment (dropReturn line) = withoutComment line := by
  rw [← withoutComment_content, content_dropReturn, withoutComment_content]

theorem parseLines_dropReturn : ∀ {inTerminal : Bool},
    parseLines inTerminal (ls.map dropReturn) = parseLines inTerminal ls := by
  induction ls with
  | nil =>
    intro inTerminal
    rfl
  | cons line ls ih =>
    intro inTerminal
    rw [List.map_cons, parseLines, parseLines, withoutComment_dropReturn]
    simp only [ih]

/-- The line of the writer, as the reader sees it. -/
theorem replacement_spec (id : TerminalId) :
    isHeader (replacement id) = false ∧ isApplication (replacement id) = true ∧
      preferenceOf (replacement id) = some id ∧ trimEnd (replacement id) = replacement id ∧
      '\n' ∉ replacement id := by
  cases id <;> decide +kernel

end Reading

/-! ## Writing -/

section Writing

variable {before body others front : List (List Char)} {header : List Char}
  {contents : List Char} {id : TerminalId}

theorem exists_first {α : Type} (p : α → Bool) : ∀ ls : List α,
    (∀ x ∈ ls, p x = false) ∨
      ∃ front x back, ls = front ++ x :: back ∧ (∀ y ∈ front, p y = false) ∧ p x = true
  | [] => .inl (by simp)
  | x :: ls => by
      cases hx : p x with
      | true => exact .inr ⟨[], x, ls, rfl, by simp, hx⟩
      | false =>
        rcases exists_first p ls with hall | ⟨front, y, back, rfl, hfront, hy⟩
        · exact .inl (List.forall_mem_cons.mpr ⟨hx, hall⟩)
        · exact .inr ⟨x :: front, y, back, rfl, List.forall_mem_cons.mpr ⟨hx, hfront⟩, hy⟩

theorem findIdx_first {α : Type} {p : α → Bool} {front back : List α} {x : α}
    (hfront : ∀ y ∈ front, p y = false) (hx : p x = true) :
    (front ++ x :: back).findIdx? p = some front.length := by
  rw [List.findIdx?_append, List.findIdx?_eq_none_iff.mpr hfront, List.findIdx?_cons, hx]
  simp

/-- The section that the writer changes: from its header to the next line with a bracket. -/
structure SectionOf (ls before : List (List Char)) (header : List Char)
    (body others : List (List Char)) : Prop where
  split : ls = before ++ header :: (body ++ others)
  before : ∀ line ∈ before, isTerminalHeader line = false
  header : isTerminalHeader header = true
  body : ∀ line ∈ body, opensSection line = false
  others : ∀ line ∈ others.head?, opensSection line = true

theorem exists_sectionOf (ls : List (List Char)) :
    (∀ line ∈ ls, isTerminalHeader line = false) ∨
      ∃ before header body others, SectionOf ls before header body others := by
  rcases exists_first isTerminalHeader ls with hnone | ⟨before, header, tail, rfl, hbefore, hheader⟩
  · exact .inl hnone
  · refine .inr ⟨before, header, ?_⟩
    rcases exists_first opensSection tail with hnone | ⟨body, next, rest, rfl, hbody, hnext⟩
    · exact ⟨tail, [], by simp, hbefore, hheader, hnone, by simp⟩
    · refine ⟨body, next :: rest, rfl, hbefore, hheader, hbody, ?_⟩
      rintro line hline
      cases hline
      exact hnext

namespace SectionOf

variable {ls : List (List Char)} (h : SectionOf ls before header body others)
include h

theorem start : ls.findIdx? isTerminalHeader = some before.length := by
  rw [h.split]
  exact findIdx_first h.before h.header

theorem drop : ls.drop (before.length + 1) = body ++ others := by
  rw [h.split, ← List.drop_drop, List.drop_left]
  rfl

theorem take : ls.take (before.length + 1) = before ++ [header] := by
  have hlength : before.length + 1 = (before ++ [header]).length := by simp
  have hlist : before ++ header :: (body ++ others) = (before ++ [header]) ++ (body ++ others) := by
    simp
  rw [h.split, hlist, hlength, List.take_left]

theorem length : ls.length = before.length + 1 + body.length + others.length := by
  rw [h.split]
  simp
  omega

theorem stop :
    (match (ls.drop (before.length + 1)).findIdx? opensSection with
      | some offset => before.length + 1 + offset
      | none => ls.length) = before.length + 1 + body.length := by
  rw [h.drop]
  cases hothers : others with
  | nil =>
    rw [List.append_nil, List.findIdx?_eq_none_iff.mpr h.body]
    show ls.length = _
    rw [h.length, hothers]
    simp
  | cons next rest =>
    rw [findIdx_first h.body (h.others next (by rw [hothers]; rfl))]

theorem drop_stop : ls.drop (before.length + 1 + body.length) = others := by
  rw [← List.drop_drop, h.drop, List.drop_left]

end SectionOf

theorem find_range' (p : List Char → Bool) (body back : List (List Char)) :
    ∀ front : List (List Char), (List.range' front.length body.length).find?
        (fun index => p ((front ++ (body ++ back)).getD index [])) =
      (body.findIdx? p).map (front.length + ·) := by
  induction body with
  | nil =>
    intro front
    rfl
  | cons line body ih =>
    intro front
    have hget : (front ++ (line :: body ++ back)).getD front.length [] = line := by simp
    rw [List.length_cons, List.range'_succ, List.find?_cons, hget, List.findIdx?_cons]
    cases hline : p line with
    | true => simp
    | false =>
      have hmove : front ++ (line :: body ++ back) = (front ++ [line]) ++ (body ++ back) := by
        simp
      have hrest := ih (front ++ [line])
      rw [List.length_append, List.length_singleton] at hrest
      have hcompose : ∀ found : Option Nat, found.map (front.length + 1 + ·) =
          (found.map (· + 1)).map (front.length + ·) := by
        intro found
        cases found with
        | none => rfl
        | some index => simp [Nat.add_assoc, Nat.add_comm 1]
      rw [hmove]
      exact hrest.trans (hcompose _)

theorem set_at {α : Type} (front back : List α) (x y : α) :
    (front ++ x :: back).set front.length y = front ++ y :: back := by
  induction front with
  | nil => rfl
  | cons z front ih => rw [List.cons_append, List.length_cons, List.set_cons_succ, ih]; rfl

/-- **The writer in a section with a line that begins with `application`.** -/
theorem updatePreference_of_application {first rest : List (List Char)} {line : List Char}
    (h : SectionOf (lines contents) before header (first ++ line :: rest) others)
    (hfirst : ∀ other ∈ first, startsApplication other = false)
    (hline : startsApplication line = true) :
    updatePreference contents id =
      terminated (before ++ header :: (first ++ replacement id :: rest ++ others)) := by
  have hfind := find_range' startsApplication (first ++ line :: rest) others (before ++ [header])
  rw [findIdx_first hfirst hline, Option.map_some] at hfind
  have hwhole : (before ++ [header]) ++ (first ++ line :: rest ++ others) = lines contents := by
    rw [h.split]
    simp
  rw [hwhole, List.length_append, List.length_singleton] at hfind
  unfold updatePreference
  simp only [h.start, h.stop, Nat.add_sub_cancel_left, hfind]
  rw [join, intercalate_newline]
  · congr 1
    have hset := set_at (before ++ header :: first) (rest ++ others) line (replacement id)
    have hindex : (before ++ header :: first).length = before.length + 1 + first.length := by
      simp
      omega
    rw [hindex] at hset
    have hlist : lines contents = (before ++ header :: first) ++ line :: (rest ++ others) := by
      rw [h.split]
      simp
    rw [hlist, hset]
    simp
  · simp [h.split]

/-- **The writer in a section without one**: the section is written anew. -/
theorem updatePreference_of_none (h : SectionOf (lines contents) before header body others)
    (hbody : ∀ line ∈ body, startsApplication line = false) :
    updatePreference contents id =
      terminated (before ++ header :: replacement id :: others) := by
  have hfind := find_range' startsApplication body others (before ++ [header])
  rw [List.findIdx?_eq_none_iff.mpr hbody, Option.map_none] at hfind
  have hwhole : (before ++ [header]) ++ (body ++ others) = lines contents := by
    rw [h.split]
    simp
  rw [hwhole, List.length_append, List.length_singleton] at hfind
  have hfront : join (before ++ [header]) ++ ['\n'] = terminated (before ++ [header]) :=
    intercalate_newline (by simp)
  unfold updatePreference
  simp only [h.start, h.stop, Nat.add_sub_cancel_left, hfind, h.take, h.drop_stop]
  have hopen : ∀ text, join (before ++ [header]) ++ '\n' :: text =
      terminated (before ++ [header]) ++ text := by
    intro text
    rw [← hfront]
    simp
  cases hothers : others with
  | nil =>
    rw [if_neg (by rw [h.length, hothers]; simp), hopen]
    simp [terminated]
  | cons next rest =>
    have hback : join (next :: rest) ++ ['\n'] = terminated (next :: rest) :=
      intercalate_newline (by simp)
    rw [if_pos (by rw [h.length, hothers]; simp), hopen, List.append_assoc, List.cons_append,
      hback]
    simp [terminated]

/-- The writer in a text without a header. -/
theorem updatePreference_of_no_header
    (h : ∀ line ∈ lines contents, isTerminalHeader line = false) :
    updatePreference contents id =
      (if trimEnd contents = [] then [] else trimEnd contents ++ "\n\n".toList) ++
        terminated ["[terminal]".toList, replacement id] := by
  unfold updatePreference
  simp only [List.findIdx?_eq_none_iff.mpr h]
  rw [List.append_assoc, List.append_assoc]
  congr 1
  simp [terminated]

end Writing

/-! ## Reading what was written -/

section Saving

variable {before body others first rest : List (List Char)} {header line : List Char}
  {contents : List Char} {id : TerminalId} {ls : List (List Char)} {inTerminal : Bool}

/-- **What the writer puts behind a header is read**, when nothing is read before. -/
theorem parseLines_replaced (hbefore : applicationIndex false before = none)
    (hheader : isTerminalHeader header = true)
    (hfirst : ∀ line ∈ first, isHeader line = false ∧ isApplication line = false) :
    parseLines false (before ++ header :: (first ++ replacement id :: rest)) = some id := by
  obtain ⟨hplain, happlication, hpreference, -, -⟩ := replacement_spec id
  rw [parseLines_append hbefore, parseLines_cons, if_neg (by simp [isHeader_terminal hheader]),
    inTerminalAfter, if_pos (isHeader_terminal hheader), withoutComment_terminal hheader,
    decide_eq_true rfl,
    parseLines_append (applicationIndex_eq_none fun line hline => (hfirst line hline).2),
    foldl_inTerminalAfter fun line hline => (hfirst line hline).1, parseLines_cons,
    if_pos ⟨by simp [hplain], rfl, happlication⟩, hpreference]

theorem applicationIndex_of_reads {tail : TerminalId → List (List Char)}
    (h : ∀ id, parseLines false (before ++ tail id) = some id) :
    applicationIndex false before = none := by
  cases hindex : applicationIndex false before with
  | none => rfl
  | some k =>
    have hauto := h .auto
    have hkonsole := h .konsole
    rw [parseLines_append_of_some hindex] at hauto hkonsole
    rw [hauto] at hkonsole
    cases hkonsole

/-! ## What is kept -/

/-- A line that is neither blank nor shaped like an application line. -/
def isSolid (line : List Char) : Bool := !isBlank line && !isApplication line

theorem countP_content {p : List Char → Bool} (h : ∀ line, p (content line) = p line)
    (ls : List (List Char)) : (ls.map content).countP p = ls.countP p := by
  rw [List.countP_map]
  congr 1
  funext line
  exact h line

theorem isSolid_content (line : List Char) : isSolid (content line) = isSolid line := by
  rw [isSolid, isBlank_content, isApplication_content, ← isSolid]

theorem isBlank_of_isApplication (h : isApplication line = true) : isBlank line = false :=
  isBlank_of_startsApplication (startsApplication_of_isApplication h)

theorem eraseIdx_at {α : Type} (front back : List α) (x : α) :
    (front ++ x :: back).eraseIdx front.length = front ++ back := by
  induction front with
  | nil => rfl
  | cons z front ih => rw [List.cons_append, List.length_cons, List.eraseIdx_cons_succ, ih]; rfl

theorem dropApplication_sublist : (dropApplication inTerminal ls).Sublist ls := by
  unfold dropApplication
  cases applicationIndex inTerminal ls with
  | none => exact List.Sublist.refl ls
  | some k => exact List.eraseIdx_sublist ls k

theorem countP_dropApplication :
    (dropApplication inTerminal ls).countP isSolid = ls.countP isSolid := by
  unfold dropApplication
  cases hindex : applicationIndex inTerminal ls with
  | none => rfl
  | some k =>
    obtain ⟨front, line, back, rfl, rfl, happlication⟩ := exists_of_applicationIndex hindex
    rw [Option.elim_some, eraseIdx_at, List.countP_append, List.countP_append,
      List.countP_cons_of_neg (by simp [isSolid, happlication])]

theorem dropApplication_append {front tail : List (List Char)}
    (h : applicationIndex inTerminal front = none) :
    dropApplication inTerminal (front ++ tail) =
      front ++ dropApplication (front.foldl inTerminalAfter inTerminal) tail := by
  unfold dropApplication
  rw [applicationIndex_append, h, Option.none_or]
  cases applicationIndex (front.foldl inTerminalAfter inTerminal) tail with
  | none => rfl
  | some k =>
    rw [Option.map_some, Option.elim_some, Option.elim_some,
      List.eraseIdx_append_of_length_le (by omega), Nat.add_sub_cancel]

theorem countP_rdropWhile (ls : List (List Char)) :
    (ls.rdropWhile isBlank).countP isSolid = ls.countP isSolid := by
  conv_rhs => rw [← List.rdropWhile_append_rtakeWhile (p := isBlank) (l := ls)]
  rw [List.countP_append]
  have hzero : (ls.rtakeWhile isBlank).countP isSolid = 0 := by
    rw [List.countP_eq_zero]
    intro line hline
    simp [isSolid, List.mem_rtakeWhile_imp hline]
  rw [hzero, Nat.add_zero]

theorem countP_otherLines :
    (otherLines contents).countP isSolid = (lines contents).countP isSolid := by
  rw [otherLines, countP_rdropWhile, countP_dropApplication]

theorem rdropWhile_append_solid {front tail : List (List Char)} (h : isBlank line = false) :
    (front ++ line :: tail).rdropWhile isBlank = front ++ line :: tail.rdropWhile isBlank := by
  induction tail using List.reverseRecOn with
  | nil =>
    rw [List.rdropWhile_concat_neg _ _ _ (by simp [h])]
    rfl
  | append_singleton tail last ih =>
    have hassoc : front ++ line :: (tail ++ [last]) = (front ++ line :: tail) ++ [last] := by simp
    rw [hassoc]
    cases hlast : isBlank last with
    | true =>
      rw [List.rdropWhile_concat_pos _ _ _ hlast, ih, List.rdropWhile_concat_pos _ _ _ hlast]
    | false =>
      rw [List.rdropWhile_concat_neg _ _ _ (by simp [hlast]),
        List.rdropWhile_concat_neg _ _ _ (by simp [hlast])]
      simp

/-- Where as much of a kind stands behind a line as behind another one, what stands before the
first must find its place before the other. -/
theorem sublist_front {α : Type} {p : α → Bool} {front back front' back' : List α} {x y : α}
    (h : (front ++ x :: back).Sublist (front' ++ y :: back')) (hx : p x = true)
    (hcount : back'.countP p ≤ back.countP p) : front.Sublist front' := by
  obtain ⟨r, r', hsplit, hfront, hback⟩ := List.append_sublist_iff.mp h
  have hmore := hback.countP_le (p := p)
  rw [List.countP_cons_of_pos hx] at hmore
  rcases List.append_eq_append_iff.mp hsplit with ⟨cut, rfl, hcut⟩ | ⟨cut, rfl, hcut⟩
  · cases cut with
    | nil => simpa using hfront
    | cons z cut =>
      obtain ⟨rfl, rfl⟩ := List.cons.inj hcut
      change (cut ++ r').countP p ≤ _ at hcount
      rw [List.countP_append] at hcount
      omega
  · exact hfront.trans (List.sublist_append_left _ _)

theorem sublist_front_of_notMem {α : Type} {front front' back : List α} {x : α}
    (h : (front ++ [x]).Sublist (front' ++ back)) (hx : x ∉ back) :
    (front ++ [x]).Sublist front' := by
  obtain ⟨l, l', hsplit, hl, hl'⟩ := List.sublist_append_iff.mp h
  cases l' using List.reverseRecOn with
  | nil =>
    rw [List.append_nil] at hsplit
    rwa [hsplit]
  | append_singleton l' last =>
    rw [← List.append_assoc] at hsplit
    obtain ⟨-, hlast⟩ := List.append_inj' hsplit rfl
    cases hlast
    exact absurd (hl'.subset (by simp)) hx

/-! ## When saving works -/

theorem lines_of_terminated (h : ∀ line ∈ ls, '\n' ∉ line) :
    lines (terminated ls) = ls.map dropReturn := by
  rw [← List.append_nil (terminated ls), lines_terminated h]
  simp [lines]

theorem saves_iff (h : updatePreference contents id = terminated ls)
    (hls : ∀ line ∈ ls, '\n' ∉ line) :
    Saves contents id ↔ parseLines false ls = some id ∧
      ((otherLines contents).map content).Sublist (ls.map content) := by
  have hreads : parsePreference (updatePreference contents id) = parseLines false ls := by
    rw [h, parsePreference, lines_of_terminated hls, parseLines_dropReturn]
  have hlines : (lines (updatePreference contents id)).map content = ls.map content := by
    rw [h, lines_of_terminated hls, List.map_map]
    congr 1
    funext line
    exact content_dropReturn line
  constructor
  · intro hsaves
    exact ⟨hreads ▸ hsaves.reads, hlines ▸ hsaves.keeps⟩
  · rintro ⟨hparse, hkeeps⟩
    exact ⟨hreads.trans hparse, hlines.symm ▸ hkeeps⟩

theorem isHeader_of_body (h : SectionOf ls before header body others) {line : List Char}
    (hline : line ∈ body) : isHeader line = false := by
  rw [← Bool.not_eq_true]
  intro hheader
  have hopen := opensSection_of_isHeader hheader
  rw [h.body line hline] at hopen
  cases hopen

theorem isApplication_of_not_starts {line : List Char} (h : startsApplication line = false) :
    isApplication line = false := by
  rw [← Bool.not_eq_true]
  intro happlication
  rw [startsApplication_of_isApplication happlication] at h
  cases h

theorem newline_notMem_written (h : SectionOf (lines contents) before header body others)
    (id : TerminalId) {line : List Char}
    (hline : line ∈ before ++ header :: (body ++ replacement id :: others)) : '\n' ∉ line := by
  have hold : line ∈ before ++ header :: (body ++ others) ∨ line = replacement id := by
    simp only [List.mem_append, List.mem_cons] at hline ⊢
    tauto
  rcases hold with hold | rfl
  · exact newline_notMem (h.split ▸ hold)
  · exact (replacement_spec id).2.2.2.2

/-- **A section with a line that begins with `application`**: that line is replaced, so it must
be the application line. -/
theorem savesEach_of_application
    (h : SectionOf (lines contents) before header (first ++ line :: rest) others)
    (hfirst : ∀ other ∈ first, startsApplication other = false)
    (hline : startsApplication line = true) :
    (∀ id, Saves contents id) ↔
      applicationIndex false before = none ∧ isApplication line = true := by
  have hquiet : ∀ other ∈ first, isHeader other = false ∧ isApplication other = false :=
    fun other hother => ⟨isHeader_of_body h (by simp [hother]),
      isApplication_of_not_starts (hfirst other hother)⟩
  have hsaves : ∀ id, Saves contents id ↔
      parseLines false (before ++ header :: (first ++ replacement id :: (rest ++ others))) =
        some id ∧ ((otherLines contents).map content).Sublist
          ((before ++ header :: (first ++ replacement id :: (rest ++ others))).map content) := by
    intro id
    refine saves_iff ?_ fun other hother => newline_notMem_written h id ?_
    · rw [updatePreference_of_application h hfirst hline]
      simp
    · simp only [List.mem_append, List.mem_cons] at hother ⊢
      tauto
  constructor
  · intro hall
    have hreads := fun id => ((hsaves id).mp (hall id)).1
    refine ⟨applicationIndex_of_reads hreads, ?_⟩
    by_contra hother
    -- the line is lost: the new text has a solid line less
    have hsolid : isSolid line = true := by
      simp [isSolid, isBlank_of_startsApplication hline, Bool.eq_false_iff.mpr hother]
    have hcount := (((hsaves .auto).mp (hall .auto)).2).countP_le (p := isSolid)
    rw [countP_content isSolid_content, countP_content isSolid_content, countP_otherLines,
      h.split] at hcount
    have hnew : isSolid (replacement .auto) = false := by
      simp [isSolid, (replacement_spec .auto).2.1]
    simp only [List.countP_append, List.countP_cons, hsolid, hnew] at hcount
    simp at hcount
    omega
  · rintro ⟨hbefore, happlication⟩ id
    rw [hsaves]
    refine ⟨parseLines_replaced hbefore h.header hquiet, List.Sublist.map _ ?_⟩
    refine (List.rdropWhile_prefix _ _).sublist.trans ?_
    have hlist : lines contents =
        (before ++ header :: first) ++ line :: (rest ++ others) := by
      rw [h.split]
      simp
    have hfront : applicationIndex false (before ++ header :: first) = none := by
      rw [applicationIndex_append, hbefore, Option.none_or, applicationIndex,
        if_neg (by simp [isHeader_terminal h.header]),
        applicationIndex_eq_none fun other hother => (hquiet other hother).2]
      rfl
    have hinside : (before ++ header :: first).foldl inTerminalAfter false = true := by
      rw [List.foldl_append, List.foldl_cons, inTerminalAfter,
        if_pos (isHeader_terminal h.header), withoutComment_terminal h.header,
        decide_eq_true rfl, foldl_inTerminalAfter fun other hother => (hquiet other hother).1]
    have hdrop : dropApplication true (line :: (rest ++ others)) = rest ++ others := by
      have hplain : isHeader line = false := isHeader_of_body h (by simp)
      rw [dropApplication, applicationIndex, if_pos ⟨by simp [hplain], rfl, happlication⟩]
      rfl
    rw [hlist, dropApplication_append hfront, hinside, hdrop]
    have hwritten : before ++ header :: (first ++ replacement id :: (rest ++ others)) =
        (before ++ header :: first) ++ replacement id :: (rest ++ others) := by
      simp
    rw [hwritten]
    exact List.Sublist.append_left (List.sublist_cons_self _ _) _

section WithoutApplication

variable (h : SectionOf (lines contents) before header body others)
  (hplain : ∀ line ∈ body, isApplication line = false)

include h hplain

theorem applicationIndex_body (hbefore : applicationIndex false before = none) :
    applicationIndex false (before ++ header :: body) = none := by
  have hheader := isApplication_of_opens (opensSection_of_isHeader (isHeader_terminal h.header))
  rw [applicationIndex_append, hbefore, Option.none_or,
    applicationIndex_eq_none (List.forall_mem_cons.mpr ⟨hheader, hplain⟩)]
  rfl

theorem isBlank_of_keeps (hkeeps : ((otherLines contents).map content).Sublist
      ((before ++ header :: replacement id :: others).map content)) :
    ∀ line ∈ body, isBlank line = true := by
  have hnew : isSolid (replacement id) = false := by simp [isSolid, (replacement_spec id).2.1]
  have hcount := hkeeps.countP_le (p := isSolid)
  rw [countP_content isSolid_content, countP_content isSolid_content, countP_otherLines,
    h.split] at hcount
  simp only [List.countP_append, List.countP_cons, hnew, Bool.false_eq_true, if_false] at hcount
  have hzero : body.countP isSolid = 0 := by omega
  intro line hline
  have hnot := List.countP_eq_zero.mp hzero line hline
  simpa [isSolid, hplain line hline] using hnot

theorem body_nil_of_keeps {next : List Char} {tail : List (List Char)}
    (hothers : others = next :: tail) (hbefore : applicationIndex false before = none)
    (hkeeps : ((otherLines contents).map content).Sublist
      ((before ++ header :: replacement id :: others).map content)) : body = [] := by
  have hheader := isApplication_of_opens (opensSection_of_isHeader (isHeader_terminal h.header))
  have hopen : opensSection next = true := h.others next (by rw [hothers]; rfl)
  have hnext := isApplication_of_opens hopen
  have hnextBlank := isBlank_of_opens hopen
  -- what is kept, up to the line behind the section, stands before that line again
  have hlist : lines contents = (before ++ header :: body ++ [next]) ++ tail := by
    rw [h.split, hothers]
    simp
  have hquiet : applicationIndex false (before ++ header :: body ++ [next]) = none := by
    rw [applicationIndex_append, applicationIndex_body h hplain hbefore, Option.none_or,
      applicationIndex_eq_none (by simpa using hnext)]
    rfl
  obtain ⟨kept, hkept, hcountKept⟩ : ∃ kept, otherLines contents =
      (before ++ header :: body) ++ next :: kept ∧
        kept.countP isSolid = tail.countP isSolid := by
    refine ⟨(dropApplication ((before ++ header :: body ++ [next]).foldl inTerminalAfter
      false) tail).rdropWhile isBlank, ?_, ?_⟩
    · rw [otherLines, hlist, dropApplication_append hquiet, List.append_assoc _ [next],
        List.singleton_append, rdropWhile_append_solid hnextBlank]
    · rw [countP_rdropWhile, countP_dropApplication]
  have hplace : ((before ++ header :: body).map content).Sublist
      ((before ++ [header, replacement id]).map content) := by
    have hsub : ((before ++ header :: body).map content ++ content next ::
        kept.map content).Sublist ((before ++ [header, replacement id]).map content ++
          content next :: tail.map content) := by
      simpa [hkept, hothers] using hkeeps
    refine sublist_front hsub (p := isSolid) ?_ ?_
    · rw [isSolid_content]
      simp [isSolid, hnext, hnextBlank]
    · rw [countP_content isSolid_content, countP_content isSolid_content, hcountKept]
  have hcount := hplace.countP_le (p := fun line => !isApplication line)
  rw [countP_content (by simp [isApplication_content]),
    countP_content (by simp [isApplication_content])] at hcount
  have hall : body.countP (fun line => !isApplication line) = body.length := by
    rw [List.countP_eq_length]
    intro line hline
    simp [hplain line hline]
  simp only [List.countP_append, List.countP_cons, List.countP_nil, hall, hheader,
    (replacement_spec id).2.1, Bool.not_true, Bool.not_false, Bool.false_eq_true,
    if_false, if_true] at hcount
  have hlength : body.length = 0 := by omega
  exact List.length_eq_zero_iff.mp hlength

/-- A section that is empty, or blank and the last one, loses nothing. -/
theorem keeps_of_blank (hbefore : applicationIndex false before = none)
    (hcase : body = [] ∨ others = [] ∧ ∀ line ∈ body, isBlank line = true) :
    (otherLines contents).Sublist (before ++ header :: replacement id :: others) := by
  rcases hcase with rfl | ⟨rfl, hblank⟩
  · refine (List.rdropWhile_prefix _ _).sublist.trans (dropApplication_sublist.trans ?_)
    rw [h.split]
    exact List.Sublist.append_left (.cons_cons _ (List.sublist_cons_self _ _)) _
  · have hsolid := isBlank_of_opens (opensSection_of_isHeader (isHeader_terminal h.header))
    have hwhole : otherLines contents = before ++ [header] := by
      rw [otherLines, h.split, List.append_nil, dropApplication,
        applicationIndex_body h hplain hbefore, Option.elim_none,
        rdropWhile_append_solid hsolid, List.rdropWhile_eq_nil_iff.mpr hblank]
    rw [hwhole]
    exact List.Sublist.append_left (by simp) _

end WithoutApplication

/-- **A section without such a line** loses what it has. -/
theorem savesEach_of_none (h : SectionOf (lines contents) before header body others)
    (hbody : ∀ line ∈ body, startsApplication line = false) :
    (∀ id, Saves contents id) ↔ applicationIndex false before = none ∧
      (body = [] ∨ others = [] ∧ ∀ line ∈ body, isBlank line = true) := by
  have hsaves : ∀ id, Saves contents id ↔
      parseLines false (before ++ header :: ([] ++ replacement id :: others)) = some id ∧
        ((otherLines contents).map content).Sublist
          ((before ++ header :: replacement id :: others).map content) := by
    intro id
    refine saves_iff (updatePreference_of_none h hbody) fun other hother =>
      newline_notMem_written h id ?_
    simp only [List.mem_append, List.mem_cons] at hother ⊢
    tauto
  have hplain : ∀ line ∈ body, isApplication line = false := fun line hline =>
    isApplication_of_not_starts (hbody line hline)
  constructor
  · intro hall
    have hbefore := applicationIndex_of_reads fun id => ((hsaves id).mp (hall id)).1
    have hkeeps := ((hsaves .auto).mp (hall .auto)).2
    refine ⟨hbefore, ?_⟩
    cases hothers : others with
    | nil => exact .inr ⟨rfl, isBlank_of_keeps h hplain hkeeps⟩
    | cons next tail => exact .inl (body_nil_of_keeps h hplain hothers hbefore hkeeps)
  · rintro ⟨hbefore, hcase⟩ id
    exact (hsaves id).mpr ⟨parseLines_replaced hbefore h.header (by simp),
      (keeps_of_blank h hplain hbefore hcase).map _⟩

theorem applicationIndex_trimEnd (line : List Char) :
    applicationIndex inTerminal [trimEnd line] = applicationIndex inTerminal [line] := by
  simp only [applicationIndex, isHeader_trimEnd, isApplication_trimEnd]

theorem applicationIndex_snoc_trimEnd (front : List (List Char)) (line : List Char) :
    applicationIndex false (front ++ [trimEnd line]) =
      applicationIndex false (front ++ [line]) := by
  rw [applicationIndex_append, applicationIndex_append, applicationIndex_trimEnd]

theorem trimEnd_trimEnd (text : List Char) : trimEnd (trimEnd text) = trimEnd text :=
  List.rdropWhile_idempotent ..

theorem trimEnd_content (line : List Char) : trimEnd (content line) = trimEnd line := by
  refine eq_of_rdropWhile (fun c line hc => ?_) line
  rw [of_decide_eq_true hc]
  exact List.rdropWhile_concat_pos _ _ _ (by decide)

theorem content_of_trimEnd {line : List Char} (h : trimEnd line = line) : content line = line := by
  unfold content
  rw [List.rdropWhile_eq_self_iff]
  intro hne
  have hlast := List.rdropWhile_eq_self_iff.mp h hne
  intro hreturn
  rw [of_decide_eq_true hreturn] at hlast
  exact hlast (by decide)

theorem not_isApplication_of_isBlank (h : isBlank line = true) : isApplication line = false := by
  rw [← Bool.not_eq_true]
  intro happlication
  rw [isBlank_of_isApplication happlication] at h
  cases h

theorem applicationIndex_append_blank {back : List (List Char)}
    (h : ∀ line ∈ back, isBlank line = true) (front : List (List Char)) :
    applicationIndex inTerminal (front ++ back) = applicationIndex inTerminal front := by
  rw [applicationIndex_append,
    applicationIndex_eq_none fun line hline => not_isApplication_of_isBlank (h line hline),
    Option.map_none, Option.or_none]

theorem lines_section (id : TerminalId) :
    lines (terminated ["[terminal]".toList, replacement id]) =
      ["[terminal]".toList, replacement id] := by
  obtain ⟨-, -, -, htrim, hfree⟩ := replacement_spec id
  have hreturn : dropReturn (replacement id) = replacement id :=
    dropReturn_of_rdropWhile (by decide) htrim
  rw [lines_of_terminated (by simp [hfree]), List.map_cons, List.map_singleton, hreturn]
  rfl

theorem saves_of_blank (h : ∀ line ∈ lines contents, isTerminalHeader line = false)
    (hblank : trimEnd contents = []) : Saves contents id := by
  have hlines : ∀ line ∈ lines contents, isBlank line = true := by
    intro line hline
    rw [isBlank, List.all_eq_true]
    exact fun c hc => List.rdropWhile_eq_nil_iff.mp hblank c (mem_of_mem_lines hline hc)
  have hwritten : updatePreference contents id =
      terminated ["[terminal]".toList, replacement id] := by
    rw [updatePreference_of_no_header h, if_pos hblank, List.nil_append]
  have hnone : applicationIndex false (lines contents) = none :=
    applicationIndex_eq_none fun line hline => not_isApplication_of_isBlank (hlines line hline)
  constructor
  · rw [hwritten, parsePreference, lines_section]
    have hread : parseLines false ([] ++ "[terminal]".toList :: ([] ++ replacement id :: [])) =
        some id :=
      parseLines_replaced rfl (by decide) (by simp)
    exact hread
  · have hnil : otherLines contents = [] := by
      rw [otherLines, dropApplication, hnone, Option.elim_none, List.rdropWhile_eq_nil_iff]
      exact hlines
    rw [hnil]
    exact List.nil_sublist _

/-- What is written behind the last line that is not blank, which loses its white space. -/
theorem lines_of_no_header {front : List (List Char)} {last : List Char}
    (h : ∀ line ∈ lines contents, isTerminalHeader line = false) (hne : trimEnd contents ≠ [])
    (hlast : ∀ rest, lines (trimEnd contents ++ '\n' :: rest) =
      front ++ trimEnd last :: lines rest) (id : TerminalId) :
    lines (updatePreference contents id) =
      (front ++ [trimEnd last, []]) ++ ["[terminal]".toList, replacement id] := by
  have hwritten : updatePreference contents id = trimEnd contents ++
      '\n' :: ([] ++ '\n' :: terminated ["[terminal]".toList, replacement id]) := by
    rw [updatePreference_of_no_header h, if_neg hne]
    simp
  rw [hwritten, hlast, lines_line (by simp), lines_section]
  simp [dropReturn]

/-- **A text without a header** gets one at its end, behind its last line without the white
space there. -/
theorem savesEach_of_no_header (h : ∀ line ∈ lines contents, isTerminalHeader line = false) :
    (∀ id, Saves contents id) ↔ applicationIndex false (lines contents) = none ∧
      ∀ line ∈ ((lines contents).rdropWhile isBlank).getLast?, content line = trimEnd line := by
  by_cases hne : trimEnd contents = []
  · have hlines : ∀ line ∈ lines contents, isBlank line = true := by
      intro line hline
      rw [isBlank, List.all_eq_true]
      exact fun c hc => List.rdropWhile_eq_nil_iff.mp hne c (mem_of_mem_lines hline hc)
    refine iff_of_true (fun id => saves_of_blank h hne) ⟨?_, ?_⟩
    · exact applicationIndex_eq_none fun line hline =>
      not_isApplication_of_isBlank (hlines line hline)
    · rw [List.rdropWhile_eq_nil_iff.mpr hlines]
      simp
  · obtain ⟨front, last, blanks, hlines, hblanks, hlast, hwhole⟩ :=
      exists_last_line isWhitespace (by decide) (by decide) hne
    have hblank : ∀ line ∈ blanks, isBlank line = true := fun line hline =>
      isBlank_iff.mpr (hblanks line hline)
    have hlastBlank : isBlank last = false := by
      rw [← Bool.not_eq_true, isBlank_iff]
      exact hlast
    have hwritten := lines_of_no_header h hne hwhole
    -- an application line is found in the old lines or in the new ones before the section
    have hindex : applicationIndex false (front ++ [trimEnd last, []]) =
        applicationIndex false (lines contents) := by
      have hsplit : front ++ [trimEnd last, []] = (front ++ [trimEnd last]) ++ [[]] := by simp
      have hold : lines contents = (front ++ [last]) ++ blanks := by simp [hlines]
      rw [hsplit, hold, applicationIndex_append_blank (by simp [isBlank]),
        applicationIndex_append_blank hblank, applicationIndex_snoc_trimEnd]
    have hkept : (lines contents).rdropWhile isBlank = front ++ [last] := by
      rw [hlines, rdropWhile_append_solid hlastBlank, List.rdropWhile_eq_nil_iff.mpr hblank]
    have hreads : ∀ id, parsePreference (updatePreference contents id) =
        parseLines false ((front ++ [trimEnd last, []]) ++
          "[terminal]".toList :: ([] ++ replacement id :: [])) := by
      intro id
      rw [parsePreference, hwritten]
      rfl
    constructor
    · intro hall
      have hnone := applicationIndex_of_reads fun id => (hreads id) ▸ (hall id).reads
      rw [hindex] at hnone
      refine ⟨hnone, ?_⟩
      rw [hkept, List.getLast?_concat]
      rintro line hline
      cases hline
      by_contra hlost
      -- no line from there on is the old one, which ends with white space
      have hkeeps := (hall .auto).keeps
      rw [otherLines, dropApplication, hnone, Option.elim_none, hkept, hwritten,
        List.map_append, List.map_singleton, List.append_assoc, List.map_append] at hkeeps
      have hends : ∀ line ∈ [trimEnd last, []] ++ ["[terminal]".toList, replacement .auto],
          trimEnd line = line := by
        have hreplacement := (replacement_spec .auto).2.2.2.1
        simp only [List.cons_append, List.nil_append, List.forall_mem_cons]
        exact ⟨trimEnd_trimEnd last, rfl, by decide, hreplacement, by simp⟩
      have hnew : content last ∉
          ([trimEnd last, []] ++ ["[terminal]".toList, replacement .auto]).map content := by
        intro hmem
        obtain ⟨line, hline, heq⟩ := List.mem_map.mp hmem
        have hend := hends line hline
        rw [content_of_trimEnd hend] at heq
        rw [heq, trimEnd_content] at hend
        exact hlost hend.symm
      have hlength := (sublist_front_of_notMem hkeeps hnew).length_le
      simp at hlength
    · rintro ⟨hnone, hend⟩ id
      rw [hkept, List.getLast?_concat] at hend
      have hsame := hend last rfl
      constructor
      · rw [hreads]
        exact parseLines_replaced (hindex.trans hnone) (by decide) (by simp)
      · have hfixed : content (trimEnd last) = content last := by
          rw [content_of_trimEnd (trimEnd_trimEnd last), hsame]
        rw [otherLines, dropApplication, hnone, Option.elim_none, hkept, hwritten]
        simp only [List.map_append, List.map_cons, List.map_nil, hfixed, List.append_assoc]
        exact List.Sublist.append_left (by simp) _

/-- **The files in which every preference can be saved** are those that are `Regular`. -/
theorem savesEach_iff (contents : List Char) : (∀ id, Saves contents id) ↔ Regular contents := by
  unfold Regular
  rcases exists_sectionOf (lines contents) with hnone | ⟨before, header, body, others, h⟩
  · simp only [List.findIdx?_eq_none_iff.mpr hnone]
    exact savesEach_of_no_header hnone
  · have htake : (lines contents).take before.length = before := by
      rw [h.split, List.take_left]
    have hnone : others.takeWhile (! opensSection ·) = [] ∧
        others.dropWhile (! opensSection ·) = others := by
      cases others with
      | nil => exact ⟨rfl, rfl⟩
      | cons next rest =>
        have hopen := h.others next rfl
        exact ⟨List.takeWhile_cons_of_neg (by simp [hopen]),
          List.dropWhile_cons_of_neg (by simp [hopen])⟩
    have hbody : (body ++ others).takeWhile (! opensSection ·) = body := by
      rw [List.takeWhile_append_of_pos (by simpa using h.body), hnone.1, List.append_nil]
    have hothers : (body ++ others).dropWhile (! opensSection ·) = others := by
      rw [List.dropWhile_append_of_pos (by simpa using h.body), hnone.2]
    simp only [h.start, h.drop, htake, hbody, hothers]
    rcases exists_first startsApplication body with hplain | ⟨first, line, rest, rfl, hfirst, hline⟩
    · rw [List.find?_eq_none.mpr (by simpa using hplain)]
      exact savesEach_of_none h hplain
    · have hfind : (first ++ line :: rest).find? startsApplication = some line := by
        rw [List.find?_append, List.find?_eq_none.mpr (by simpa using hfirst), Option.none_or,
          List.find?_cons_of_pos hline]
      rw [hfind]
      exact savesEach_of_application h hfirst hline

/-- **A section without a preference loses its other settings.** -/
theorem section_loses_lines : ¬ Saves "[terminal]\nsize = 12\n[other]\n".toList .kitty :=
  fun h => absurd h.keeps (by decide +kernel)

end Saving

end TuxStack.Gui.Preference
