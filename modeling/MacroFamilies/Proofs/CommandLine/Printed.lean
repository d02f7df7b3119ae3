import MacroFamilies.CommandLine.Session
import Mathlib
/-!
# What is printed

The output of a session is a list of items; what a terminal gets is their text. Here that text is
spelled for the reports of a check: the line of each status, the lines of a difference, and the
summary. In front of a text in colours stand the codes that end the look before and start the new
one.
-/

namespace MacroFamilies

namespace Terminal

@[simp] theorem render_nil (colored : Bool) : render colored [] = "" := rfl

@[simp] theorem render_cons (colored : Bool) (item : Item) (items : List Item) :
    render colored (item :: items) = item.render colored ++ render colored items :=
  String.join_cons

@[simp] theorem render_append (colored : Bool) (items others : List Item) :
    render colored (items ++ others) = render colored items ++ render colored others := by
  rw [render, List.map_append, String.join_append]
  rfl

theorem render_flatMap {α : Type} (colored : Bool) (xs : List α) (f : α → List Item) :
    render colored (xs.flatMap f) = String.join (xs.map fun x => render colored (f x)) := by
  induction xs with
  | nil => rfl
  | cons x xs ih => rw [List.flatMap_cons, render_append, ih, List.map_cons, String.join_cons]

@[simp] theorem render_line (colored : Bool) (text : String) :
    (line text).render colored = text ++ "\n" := rfl

theorem render_lines (colored : Bool) (texts : List String) :
    render colored (texts.map line) = String.join (texts.map (· ++ "\n")) := by
  rw [render, List.map_map]
  rfl

end Terminal

namespace CommandLine

open LineDiff (Hunk)

abbrev Printed := Bool → String

/-- A text in bold, in the colour of a digit: `1` is red, `2` is green and `3` is yellow. -/
def bold (digit text : String) : Printed := fun colored =>
  if colored then "\x1b[0m\x1b[1m\x1b[3" ++ digit ++ "m" ++ text ++ "\x1b[0m" else text

/-- Lines behind a sign, with the codes that are printed in front of them in colours. -/
def signed (codes sign : String) (lines : List (List Char)) : Printed := fun colored =>
  (if colored then codes else "") ++
    String.join (lines.map fun line => sign ++ String.ofList line ++ "\n")

def hunkText (hunk : Hunk) : Printed :=
  match hunk.change with
  | .same => signed "\x1b[0m" " " hunk.lines
  | .removed => signed "\x1b[0m\x1b[31m" "-" hunk.lines
  | .added => signed "\x1b[0m\x1b[32m" "+" hunk.lines

def differenceText (onDisk fresh : String) : Printed := fun colored =>
  String.join ((LineDiff.between onDisk.toList fresh.toList).map fun hunk =>
    hunkText hunk colored) ++ if colored then "\x1b[0m" else ""

def summaryText (stale total : Nat) : Printed :=
  if stale = 0 then bold "2" ("all " ++ toString total ++ " artifacts up to date\n")
  else bold "1" (toString stale ++ " of " ++ toString total ++
    " artifacts out of date; run `aritygen generate`\n")

/-- A session leaves the file system as it is, ends with this exit code and prints this text. -/
structure Prints (fs : FileSystem) (session : FileSystem × Outcome) (exitCode : Nat)
    (text : Printed) : Prop where
  unchanged : session.1 = fs
  exitCode_eq : session.2.exitCode = exitCode
  failure_eq : session.2.failure = none
  printed : ∀ colored, Terminal.render colored session.2.output = text colored

/-! ## Differences -/

theorem render_hunkReport (colored : Bool) (hunk : Hunk) :
    Terminal.render colored (hunkReport hunk) = hunkText hunk colored := by
  have hlines (sign : String) : Terminal.render colored
      (hunk.lines.map fun line => Terminal.line (sign ++ String.ofList line)) =
        String.join (hunk.lines.map fun line => sign ++ String.ofList line ++ "\n") := by
    rw [Terminal.render, List.map_map]
    rfl
  unfold hunkReport hunkText
  cases hunk.change <;> simp only [changeMark, Terminal.render_cons, hlines, signed] <;>
    cases colored <;> rfl

theorem render_differenceReport (colored : Bool) (onDisk fresh : String) :
    Terminal.render colored (differenceReport onDisk fresh) =
      differenceText onDisk fresh colored := by
  unfold differenceReport differenceText
  rw [Terminal.render_append, Terminal.render_flatMap]
  simp only [render_hunkReport]
  cases colored <;> rfl

/-! ## Statuses and the summary -/

theorem render_look (colored : Bool) (color : Terminal.Color) (text : String) :
    Terminal.render colored [.look color true, .text text, .reset] =
      bold color.digit text colored := by
  cases colored with
  | false => simp [Terminal.Item.render, bold]
  | true =>
    rw [← String.toList_inj]
    simp [Terminal.Item.render, Terminal.control, bold]

theorem render_statusReport (colored : Bool) (file : RenderedFile) (status : FileStatus) :
    Terminal.render colored (statusReport file status) =
      match status with
      | .upToDate => bold "2" "      ok" colored ++ " " ++ file.path ++ "\n"
      | .missing => bold "1" " missing" colored ++ " " ++ file.path ++ "\n"
      | .stale onDisk => bold "3" "   stale" colored ++ " " ++ file.path ++ "\n" ++
          differenceText onDisk file.contents colored := by
  have hline (color : Terminal.Color) (tag shown : String) (htag : alignRight 8 tag = shown) :
      Terminal.render colored [.look color true, .text (alignRight 8 tag), .reset,
        Terminal.line (" " ++ file.path)] =
          bold color.digit shown colored ++ " " ++ file.path ++ "\n" := by
    rw [← htag, ← render_look]
    simp [String.append_assoc]
  have hok := hline .green "ok" "      ok" (by decide)
  have hmissing := hline .red "missing" " missing" (by decide)
  have hstale := hline .yellow "stale" "   stale" (by decide)
  cases status with
  | upToDate => exact hok
  | missing => exact hmissing
  | stale onDisk =>
    simp only [← render_differenceReport]
    rw [statusReport, Terminal.render_append]
    exact congrArg (· ++ Terminal.render colored _) hstale

theorem render_summary (colored : Bool) (stale total : Nat) :
    Terminal.render colored (summary stale total) = summaryText stale total colored := by
  -- the line feed is written in the look of the summary
  unfold summary summaryText Terminal.line
  split_ifs
  · rw [render_look, String.append_assoc]
    rfl
  · rw [render_look, String.append_assoc]
    rfl

end CommandLine

end MacroFamilies
