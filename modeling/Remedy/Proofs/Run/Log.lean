import Remedy.Proofs.Files.Lookup
import Remedy.Proofs.Json.Ascii
import Remedy.Proofs.Text.Lines
import Remedy.Run.Workspace

/-!
The log of attempts is read back as the records that were written to it.

Every record is one line, for it is written in ASCII and without the characters that end lines. A line is never blank, since it
begins with a brace. So the lines that are read are those that were written, however many loggers there were.
-/

namespace Remedy

open Text (encode splitAtNewlines)

/-! ### Lines -/

namespace AttemptLog

theorem proper_toJson {a : Attempt} (proper : (Json.obj a.artifacts).Proper) : a.toJson.Proper :=
  ⟨by simp, trivial, trivial, Json.properAll_texts a.fixTypes, Json.properAll_texts a.errors, trivial, trivial, proper, trivial⟩

/-- A record as it stands in the log, without the line feed behind it. -/
def recordText (a : Attempt) : List Char := Json.write ⟨true, true⟩ a.toJson

theorem toList_line (a : Attempt) : (line a).toList = recordText a ++ ['\n'] := by
  rw [line, Json.render, String.toList_append, String.toList_ofList]
  rfl

/-- What is in the log after some records were written. -/
def textOf (as : List Attempt) : List Char := as.flatMap fun a => (line a).toList

theorem textOf_append (as : List Attempt) (a : Attempt) : textOf (as ++ [a]) = textOf as ++ (line a).toList := by
  rw [textOf, List.flatMap_append, List.flatMap_singleton, textOf]

theorem textOf_eq (as : List Attempt) : textOf as = (as.map recordText).flatMap (· ++ ['\n']) := by
  simp only [textOf, toList_line, List.flatMap_map]

section

variable {as : List Attempt} (proper : ∀ a ∈ as, (Json.obj a.artifacts).Proper)

include proper

theorem printable_recordText {text : List Char} (member : text ∈ as.map recordText) {c : Char} (part : c ∈ text) :
    Json.Printable c := by
  obtain ⟨a, given, rfl⟩ := List.mem_map.mp member
  exact Json.printable_write true a.toJson (proper_toJson (proper a given)) c part

theorem not_mem_textOf : '\r' ∉ textOf as := by
  intro member
  rw [textOf_eq, List.mem_flatMap] at member
  obtain ⟨text, given, part⟩ := member
  rcases List.mem_append.mp part with inside | last
  · exact absurd (printable_recordText proper given inside) (by decide)
  · exact absurd (List.mem_singleton.mp last) (by decide)

/-- The lines of the log are the records, and behind the last one nothing is left. -/
theorem splitAtNewlines_textOf : splitAtNewlines (textOf as) = as.map recordText ++ [[]] := by
  have whole := Text.intercalate_middle (as.map recordText) [] []
  rw [List.nil_append, List.flatMap_nil, List.append_nil, ← textOf_eq] at whole
  rw [← whole, Text.splitAtNewlines_intercalate (by simp)]
  intro text member feed
  rcases List.mem_append.mp member with given | last
  · exact absurd (printable_recordText proper given feed) (by decide)
  · rw [List.mem_singleton.mp last] at feed
    cases feed

/-- **The records of a log are read as they were written.** -/
theorem read?_textOf : read? (String.ofList (textOf as)) = some (as.map Attempt.toJson) := by
  have blank (a : Attempt) : (recordText a).all Text.isBlank = false := rfl
  have kept : (as.map recordText).filter (fun text => !text.all Text.isBlank) = as.map recordText := by
    rw [List.filter_eq_self]
    rintro text member
    obtain ⟨a, _, rfl⟩ := List.mem_map.mp member
    rw [blank]
    rfl
  have read (a : Attempt) (member : a ∈ as) : Json.parse? (String.ofList (recordText a)) = some a.toJson :=
    Json.parse?_render (proper_toJson (proper a member))
  rw [read?, String.toList_ofList, splitAtNewlines_textOf proper, List.filter_append, kept]
  change ((as.map recordText) ++ []).mapM _ = _
  rw [List.append_nil, List.mapM_map]
  clear kept blank
  -- Every line is read by itself.
  induction as with
  | nil => rfl
  | cons a as told =>
    rw [List.mapM_cons, Function.comp_apply, read a List.mem_cons_self, told (fun b member => proper b (List.mem_cons_of_mem a member))
      fun b member => read b (List.mem_cons_of_mem a member)]
    rfl

end

end AttemptLog

/-! ### Logs -/

namespace Workspace

variable {w : Workspace σ} {root : Path} {as : List Attempt}

/-- The log holds these records and nothing else. As long as there are none, it may be missing. -/
def Holds (w : Workspace σ) (root : Path) (as : List Attempt) : Prop :=
  match w.tree.file? (w.tree.home.resolve (AttemptLog.path root)) with
  | some log => log.bytes = encode (AttemptLog.textOf as)
  | none => as = []

/-- Making a logger leaves the log as it is. -/
theorem Holds.openLog (h : w.Holds root as) : (w.openLog root).Holds root as := h

/-- A record that is written comes last. -/
theorem Holds.logAttempt (h : w.Holds root as) (a : Attempt) : (w.logAttempt root a).Holds root (as ++ [a]) := by
  have home : (w.logAttempt root a).tree.home = w.tree.home := rfl
  rw [Holds] at h
  rw [Holds, home, Workspace.logAttempt, putTree, FileTree.file?_put, if_pos rfl, AttemptLog.textOf_append, Text.encode_append]
  cases found : w.tree.file? (w.tree.home.resolve (AttemptLog.path root)) with
  | some log =>
    rw [found] at h
    simp only [h]
  | none =>
    rw [found] at h
    rw [h]
    rfl

/-- The records of the log are read. -/
theorem Holds.attempts (h : w.Holds root as) (proper : ∀ a ∈ as, (Json.obj a.artifacts).Proper) :
    w.attempts root = .ok (some (as.map Attempt.toJson)) := by
  rw [Holds] at h
  rw [Workspace.attempts]
  cases found : w.tree.file? (w.tree.home.resolve (AttemptLog.path root)) with
  | some log =>
    rw [found] at h
    simp only [FileTree.textOf, h, Text.decode?_encode, Text.universalNewlines_eq_self (AttemptLog.not_mem_textOf proper),
      Except.map, AttemptLog.read?_textOf proper]
  | none =>
    rw [found] at h
    rw [h]
    rfl

end Workspace

/-- What is done with a log of attempts: a logger is made for it, or one of them writes a record. -/
inductive LogStep where
  | opened
  | wrote (a : Attempt)

namespace LogStep

def attempt? : LogStep → Option Attempt
  | opened => none
  | wrote a => some a

def run (root : Path) (w : Workspace σ) : LogStep → Workspace σ
  | opened => w.openLog root
  | wrote a => w.logAttempt root a

namespace Harsh

/-- A record with line ends of several kinds, quotes, and characters beyond ASCII. -/
def record : Attempt :=
  ⟨"a \"b\".html", "healed", ["add-attribute", ""], ["one\r\ntwo\u2028three\x85", "\n\n"], "é😀", true,
    [("diff", .str "\\n\x00\x7f"), ("", .null)]⟩

/-- A record with nothing in it. -/
def empty : Attempt := ⟨"", "", [], [], "", false, []⟩

def root : Path := .ofString "logs/run"

end Harsh

end LogStep

end Remedy
