import Culprit.Proofs.Json.OneLine
import Culprit.Proofs.Machine.Appending
import Culprit.Proofs.Report.Codec
import Culprit.Proofs.Search.Bench
import Culprit.Proofs.Text.Utf8
import Culprit.TrialLog
import Mathlib.Data.List.Induction

/-!
Appending to a log. No byte of a record is a line break, and the line of a record reads as that
record, so a log that was written line by line is read as the records that were written. A record
of another version changes nothing at all. The others go to the end of the file, each with its line,
so the log of a fresh file is what was appended to it.
-/

namespace Culprit.TrialLog

open Text

/-! ### Lines -/

theorem splitLines_append {bytes : List UInt8} (h : ∀ b ∈ bytes, b ≠ 10) (rest : List UInt8) :
    splitLines (bytes ++ 10 :: rest) = bytes :: splitLines rest := by
  induction bytes with
  | nil => rfl
  | cons b bytes ih =>
      obtain ⟨hb, hbytes⟩ := List.forall_mem_cons.mp h
      rw [List.cons_append, splitLines, if_neg hb, ih hbytes]

theorem splitLines_ne_nil (bytes : List UInt8) : splitLines bytes ≠ [] := by
  cases bytes with
  | nil => nofun
  | cons b bytes =>
      rw [splitLines]
      split
      · nofun
      · split <;> nofun

/-- Bytes that end with a line feed and hold no other line break make a line of their own. -/
theorem linesOf_append {bytes : List UInt8} (h : ∀ b ∈ bytes, b ≠ 10 ∧ b ≠ 13)
    (rest : List UInt8) :
    linesOf (splitLines (bytes ++ 10 :: rest)) = bytes :: linesOf (splitLines rest) := by
  rw [splitLines_append fun b hb => (h b hb).1]
  rcases hrest : splitLines rest with _ | ⟨piece, pieces⟩
  · exact absurd hrest (splitLines_ne_nil rest)
  · rw [linesOf]
    · congr 1
      rw [dropReturn, if_neg fun hlast => (h 13 (List.mem_of_getLast? hlast)).2 rfl]
    · nofun

/-! ### Records -/

/-- The bytes of a record without the line feed. -/
def recordBytes (t : Trial) : List UInt8 :=
  Utf8.encode t.toJson.compact.toList

theorem toList_line (t : Trial) : (line t).toUTF8.toList = recordBytes t ++ [10] := by
  rw [Text.Utf8.toList_toUTF8, line, String.toList_append, Text.Utf8.encode_append]
  rfl

theorem no_break_of_mem (t : Trial) {b : UInt8} (hb : b ∈ recordBytes t) : b ≠ 10 ∧ b ≠ 13 := by
  have hplain := Json.oneLine_compact t.toJson
  refine ⟨?_, ?_⟩ <;>
  · rintro rfl
    exact absurd (hplain _ (Text.Utf8.mem_of_mem_encode hb (by decide))) (by decide)

theorem trimChars_ne_nil {c : Char} (h : Text.isBlank c = false) (cs : List Char) :
    Text.trimChars (c :: cs) ≠ [] := by
  rw [Text.trimChars, Text.trimLeft_cons_of_not_blank h, Text.trimRight]
  intro hnil
  rw [List.reverse_eq_nil_iff, List.dropWhile_eq_nil_iff] at hnil
  have hblank := hnil c (by simp)
  rw [h] at hblank
  cases hblank

/-- An object is not blank. -/
theorem trimChars_object (fields : List (String × Json)) :
    (Text.trimChars (Json.object fields).compact.toList).isEmpty = false := by
  rw [Json.compact, String.toList_append, String.toList_append, List.append_assoc,
    List.isEmpty_eq_false_iff]
  exact trimChars_ne_nil (c := '\x7b') (by decide) _

theorem readLine_recordBytes {t : Trial} (h : t.Legible) (number : Nat) :
    readLine number (recordBytes t) = .ok (some t) := by
  have hblank : (Text.trimChars t.toJson.compact.toList).isEmpty = false := trimChars_object _
  have hparse : (Json.parse? (String.ofList t.toJson.compact.toList)).bind Trial.ofJson? =
      some t := by
    rw [String.ofList_toList, Json.parse?_compact h.restores.faithful]
    exact h.restores.read
  rw [readLine, recordBytes, Text.Utf8.decode?_encode]
  simp only [hblank, hparse]
  rfl

theorem readLines_recordBytes {ts : List Trial} (h : ∀ t ∈ ts, t.Legible) (number : Nat) :
    readLines number (ts.map recordBytes) = .ok ts := by
  induction ts generalizing number with
  | nil => rfl
  | cons t ts ih =>
      obtain ⟨ht, hts⟩ := List.forall_mem_cons.mp h
      rw [List.map_cons, readLines, readLine_recordBytes ht, ih hts]
      rfl

theorem linesOf_records (ts : List Trial) :
    linesOf (splitLines (ts.flatMap fun t => recordBytes t ++ [10])) = ts.map recordBytes := by
  induction ts with
  | nil => rfl
  | cons t ts ih =>
      rw [List.flatMap_cons, List.append_assoc, List.singleton_append,
        linesOf_append fun _ => no_break_of_mem t, ih, List.map_cons]

/-- What was written line by line is read back. -/
theorem readBytes_lines {ts : List Trial} (h : ∀ t ∈ ts, t.Legible) :
    readBytes (ts.flatMap fun t => (line t).toUTF8.toList) = .ok ts := by
  simp only [toList_line]
  rw [readBytes, linesOf_records, readLines_recordBytes h]

open Attempt (runOn)

variable {path text : String} {t : Trial} {ts : List Trial} {m m' : Machine}

/-! ### One record -/

theorem append_refused (h : t.version ≠ Trial.formatVersion) :
    runOn (append path t) m = (.error (.logVersion t.version), m) := by
  rw [append, if_pos h]
  rfl

/-- What is left of an append when its record is accepted. -/
theorem runOn_append (h : t.version = Trial.formatVersion) :
    runOn (append path t) m = match makeParent path m with
      | (.error e, m₁) => (.error (.file .createParent e), m₁)
      | (.ok (), m₁) =>
        match Machine.appendText path (line t) m₁ with
        | (.error e, m₂) => (.error (.file (.open path) e), m₂)
        | (.ok (), m₂) => (.ok (), m₂) := by
  rw [append, if_neg (not_not_intro h), Attempt.runOn_lift_bind]
  rcases makeParent path m with ⟨e | _, m₁⟩
  · rfl
  · show runOn (ExceptT.lift (Machine.appendText path (line t)) >>= _) m₁ = _
    rw [Attempt.runOn_lift_bind]
    rcases hwrite : Machine.appendText path (line t) m₁ with ⟨e | _, m₂⟩ <;> simp only [hwrite] <;>
      rfl

/-- An append that succeeds finds or makes the directory and then writes the line. -/
theorem append_ok_iff : runOn (append path t) m = (.ok (), m') ↔
    t.version = Trial.formatVersion ∧ ∃ m₁, makeParent path m = (.ok (), m₁) ∧
      Machine.appendText path (line t) m₁ = (.ok (), m') := by
  refine ⟨fun h => ?_, ?_⟩
  · by_cases hversion : t.version = Trial.formatVersion
    · rw [runOn_append hversion] at h
      rcases hparent : makeParent path m with ⟨e | _, m₁⟩ <;> rw [hparent] at h
      · cases h
      · simp only at h
        rcases hwrite : Machine.appendText path (line t) m₁ with ⟨e | _, m₂⟩ <;> rw [hwrite] at h
        · cases h
        · cases h
          exact ⟨hversion, m₁, rfl, hwrite⟩
    · rw [append_refused hversion] at h
      cases h
  · rintro ⟨hversion, m₁, hparent, hwrite⟩
    rw [runOn_append hversion, hparent]
    simp only [hwrite]

/-! ### One record after the other -/

/-- The directory of a log is made beside what is there. -/
theorem makeParent_extends (path : String) (m : Machine) :
    m.files.Extends (makeParent path m).2.files ∧ (makeParent path m).2.cwd = m.cwd := by
  unfold makeParent
  rcases Path.directory? path with _ | dir
  · exact ⟨.refl _, rfl⟩
  · have hthere : Machine.isThere dir m = (m.files.isThere (m.absolute dir), m) := rfl
    simp only [bind_of hthere]
    split
    · exact ⟨.refl _, rfl⟩
    · exact Machine.createDirectories_extends dir m

/-- The log of `path` is not there yet, and it will not be there when its directory is. -/
def Fresh (path : String) (m : Machine) : Prop :=
  (Machine.isThere path (makeParent path m).2).1 = false

theorem Fresh.missing (h : Fresh path m) : (Machine.isThere path m).1 = false := by
  obtain ⟨hfiles, hcwd⟩ := makeParent_extends path m
  refine Bool.eq_false_iff.mpr fun hthere => ?_
  have hpath : (makeParent path m).2.absolute path = m.absolute path := by
    rw [Machine.absolute, Machine.absolute, hcwd]
  have hlater : (makeParent path m).2.files.isThere ((makeParent path m).2.absolute path) = true :=
    hpath ▸ hfiles.isThere hthere
  exact Bool.false_ne_true (h.symm.trans hlater)

/-- The text of a log. -/
def textOf (ts : List Trial) : String :=
  String.join (ts.map line)

theorem textOf_concat (ts : List Trial) (t : Trial) :
    textOf (ts ++ [t]) = textOf ts ++ line t := by
  simp [textOf, String.join]

theorem holds_append (h : m.Holds path text) (happend : runOn (append path t) m = (.ok (), m')) :
    m'.Holds path (text ++ line t) := by
  obtain ⟨-, m₁, hparent, hwrite⟩ := append_ok_iff.mp happend
  obtain ⟨hfiles, hcwd⟩ := makeParent_extends path m
  rw [hparent] at hfiles hcwd
  obtain ⟨m₂, hwritten, hholds⟩ := (h.extends hfiles hcwd).append (line t)
  rw [hwrite] at hwritten
  cases hwritten
  exact hholds

theorem forM_concat : runOn (forM (ts ++ [t]) (append path)) m = (.ok (), m') ↔
    ∃ m₁, runOn (forM ts (append path)) m = (.ok (), m₁) ∧
      runOn (append path t) m₁ = (.ok (), m') := by
  rw [List.forM_append, Attempt.runOn_bind]
  rcases runOn (forM ts (append path)) m with ⟨e | _, m₁⟩
  · simp
  · have hone : forM [t] (append path) = append path t := by simp
    simp [hone]

/-- What was appended to a fresh log is in the file. -/
theorem holds_appended (hfresh : Fresh path m)
    (h : runOn (forM ts (append path)) m = (.ok (), m')) :
    ts = [] ∧ m' = m ∨ ts ≠ [] ∧ m'.Holds path (textOf ts) := by
  induction ts using List.reverseRecOn generalizing m' with
  | nil =>
      cases h
      exact .inl ⟨rfl, rfl⟩
  | append_singleton ts t ih =>
      refine .inr ⟨by simp, ?_⟩
      obtain ⟨m₁, hts, ht⟩ := forM_concat.mp h
      rw [textOf_concat]
      obtain ⟨rfl, rfl⟩ | ⟨-, hholds⟩ := ih hts
      · obtain ⟨-, m₂, hparent, hwrite⟩ := append_ok_iff.mp ht
        rw [Fresh, hparent] at hfresh
        exact Machine.holds_of_new hfresh hwrite
      · exact holds_append hholds ht

/-! ### Reading -/

theorem toList_textOf (ts : List Trial) :
    (textOf ts).toUTF8.toList = ts.flatMap fun t => (line t).toUTF8.toList := by
  induction ts using List.reverseRecOn with
  | nil =>
      rw [Text.Utf8.toList_toUTF8]
      rfl
  | append_singleton ts t ih =>
      rw [textOf_concat, Machine.toUTF8_append, Text.Utf8.toList_append, ih, List.flatMap_append,
        List.flatMap_singleton]

/-- Each record has a line of its own. -/
theorem lines_textOf (ts : List Trial) :
    linesOf (splitLines (textOf ts).toUTF8.toList) =
      ts.map fun t => t.toJson.compact.toUTF8.toList := by
  have hrecord (t : Trial) : t.toJson.compact.toUTF8.toList = recordBytes t :=
    Text.Utf8.toList_toUTF8 _
  simp only [toList_textOf, toList_line, hrecord]
  exact linesOf_records ts

theorem readAll_missing (h : (Machine.isThere path m).1 = false) :
    runOn (readAll path) m = (.error (.logMissing path), m) := by
  have hthere : Machine.isThere path m = (false, m) := congrArg (·, m) h
  rw [readAll, Attempt.runOn_lift_bind, hthere]
  rfl

/-- A log that holds readable records is read as these records. -/
theorem readAll_holds (h : m.Holds path (textOf ts)) (hlegible : ∀ t ∈ ts, t.Legible) :
    runOn (readAll path) m = (.ok ts, m) := by
  rw [readAll, Attempt.runOn_lift_bind, h.isThere]
  show runOn (ExceptT.lift (Machine.read path) >>= _) m = _
  rw [Attempt.runOn_lift_bind, h.read]
  show (readBytes (textOf ts).toUTF8.toList, m) = _
  rw [toList_textOf, readBytes_lines hlegible]

end Culprit.TrialLog
