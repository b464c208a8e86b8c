import Rehost.Proofs.Table
import Rehost.Report

/-! The report for readers. Its layout is said section by section, without the steps that write it. Exactly one list of
lines is laid out like that, and the order in which counts were found has no part in it. -/
namespace Rehost.Report

/-- Counts are kept by name, so no name stands twice. -/
structure Proper (r : Report) : Prop where
  landmarks : (Table.keys r.landmarks).Nodup
  stripped : (Table.keys r.stripped).Nodup

structure Reordered (r r' : Report) : Prop where
  landmarks : r'.landmarks.Perm r.landmarks
  stripped : r'.stripped.Perm r.stripped
  rest : r' = { r with landmarks := r'.landmarks, stripped := r'.stripped }

def FileShown (label : Text) (path : Option Text) (length : Int) (lines : List Text) : Prop :=
  (path.getD [] = [] ∧ lines = []) ∨
    ∃ p, path = some p ∧ p ≠ [] ∧ lines = [label ++ ": " ++ p ++ " (" ++ toString length ++ " chars)"]

def CountsShown (t : Table Int) (lines : List Text) : Prop :=
  ∃ entries : Table Int, entries.Perm t ∧ (entries.Pairwise fun a b => a.1 < b.1) ∧
    lines = entries.map fun e => ("  " ++ e.1 ++ ": " ++ toString e.2 : Text)

/-- A section is its heading over its entries; without entries there is none. -/
def SectionShown (heading : Text) (entries lines : List Text) : Prop :=
  (entries = [] ∧ lines = []) ∨ (entries ≠ [] ∧ lines = heading :: entries)

def LaidOut (r : Report) (lines : List Text) : Prop :=
  ∃ input output found counts stripped warnings errors,
    FileShown "Input" r.inputPath r.inputLength input ∧ FileShown "Output" r.outputPath r.outputLength output ∧
    ((r.landmarks = [] ∧ found = [("  none" : Text)]) ∨ (r.landmarks ≠ [] ∧ CountsShown r.landmarks found)) ∧
    CountsShown r.stripped counts ∧ SectionShown "Stripped browser references:" counts stripped ∧
    SectionShown "Warnings:" (r.warnings.map ("  - " ++ ·)) warnings ∧
    SectionShown "Errors:" (r.errors.map ("  - " ++ ·)) errors ∧
    lines = ("Source hash: " ++ r.sourceHash) :: input ++ output ++ ("Fingerprint matches:" : Text) :: found ++ stripped ++
      warnings ++ errors

variable {r r' : Report} {t : Table Int} {label heading : Text} {path : Option Text} {length : Int}
  {entries lines : List Text}

/-! Each part of the layout has its own lines. -/

theorem fileShown_iff : FileShown label path length lines ↔ lines = fileLine label path length := by
  unfold FileShown fileLine
  match path with
  | none => simp
  | some [] => simp
  | some (c :: p) => simp

theorem sectionShown_iff : SectionShown heading entries lines ↔ lines = underHeading heading entries := by
  cases entries with
  | nil => simp [SectionShown, underHeading]
  | cons e entries => simp [SectionShown, underHeading]

theorem countsShown_iff (h : (Table.keys t).Nodup) : CountsShown t lines ↔ lines = (Table.sorted t).map countLine := by
  constructor
  · rintro ⟨entries, hperm, hentries, rfl⟩
    rw [Table.eq_sorted hperm hentries]
    rfl
  · rintro rfl
    exact ⟨Table.sorted t, Table.perm_sorted t, Table.pairwise_sorted h, rfl⟩

theorem laidOut_iff (h : r.Proper) : r.LaidOut lines ↔ lines = r.lines := by
  have hfound : ∀ found, ((r.landmarks = [] ∧ found = [("  none" : Text)]) ∨
      (r.landmarks ≠ [] ∧ CountsShown r.landmarks found)) ↔
        found = if r.landmarks.isEmpty then [("  none" : Text)] else (Table.sorted r.landmarks).map countLine := by
    intro found
    rw [countsShown_iff h.landmarks]
    cases r.landmarks <;> simp
  simp only [LaidOut, fileShown_iff, sectionShown_iff, countsShown_iff h.stripped, hfound]
  constructor
  · rintro ⟨_, _, _, _, _, _, _, rfl, rfl, rfl, rfl, rfl, rfl, rfl, rfl⟩
    simp [Report.lines, landmarkLines]
  · rintro rfl
    refine ⟨_, _, _, _, _, _, _, rfl, rfl, rfl, rfl, rfl, rfl, rfl, ?_⟩
    simp [Report.lines, landmarkLines]

/-! The order in which counts were found has no part in the layout. -/

theorem CountsShown.of_perm {t' : Table Int} (hshown : CountsShown t lines) (h : t'.Perm t) : CountsShown t' lines := by
  obtain ⟨entries, hperm, hentries⟩ := hshown
  exact ⟨entries, hperm.trans h.symm, hentries⟩

theorem Reordered.proper (hreordered : r.Reordered r') (h : r.Proper) : r'.Proper where
  landmarks := (hreordered.landmarks.map Prod.fst).nodup_iff.2 h.landmarks
  stripped := (hreordered.stripped.map Prod.fst).nodup_iff.2 h.stripped

theorem LaidOut.of_reordered (hlaid : r.LaidOut lines) (h : r.Reordered r') : r'.LaidOut lines := by
  obtain ⟨input, output, found, counts, stripped, warnings, errors, hinput, houtput, hfound, hcounts, hrest⟩ := hlaid
  have hempty : r'.landmarks = [] ↔ r.landmarks = [] :=
    ⟨fun he => (he ▸ h.landmarks).nil_eq.symm, fun he => (he ▸ h.landmarks).eq_nil⟩
  rw [h.rest]
  refine ⟨input, output, found, counts, stripped, warnings, errors, hinput, houtput, ?_, hcounts.of_perm h.stripped,
    hrest⟩
  exact hfound.imp (And.imp_left hempty.2) (And.imp (mt hempty.1) (CountsShown.of_perm · h.landmarks))

/-! Headings. No other line is like one: lines about the hash and the files begin with words of their own, and all
others begin with a blank. -/

def Indented (line : Text) : Prop := line.head? = some (' ' : CodePoint)

instance (line : Text) : Decidable (Indented line) := inferInstanceAs (Decidable (_ = _))

def labels : List Text := ["Source hash", "Input", "Output"]

theorem prefix_of_mem_fileLine {line : Text} (h : line ∈ fileLine label path length) : label <+: line := by
  unfold fileLine at h
  match path with
  | none => simp at h
  | some [] => simp at h
  | some (c :: p) =>
    obtain rfl := List.mem_singleton.1 h
    simp only [List.append_assoc]
    exact List.prefix_append ..

theorem mem_underHeading_iff {line : Text} (hline : ¬ Indented line) (hentries : ∀ e ∈ entries, Indented e) :
    line ∈ underHeading heading entries ↔ line = heading ∧ entries ≠ [] := by
  cases entries with
  | nil => simp [underHeading]
  | cons e entries =>
    have hnot : line ∉ e :: entries := fun hmem => hline (hentries line hmem)
    simp [underHeading, -List.mem_cons, List.mem_cons (a := line) (b := heading), hnot]

theorem mem_lines_iff {line : Text} (hline : ¬ Indented line) (hlabels : ∀ label ∈ labels, ¬ label <+: line) :
    line ∈ r.lines ↔ line = "Fingerprint matches:" ∨ (line = "Stripped browser references:" ∧ r.stripped ≠ []) ∨
      (line = "Warnings:" ∧ r.warnings ≠ []) ∨ (line = "Errors:" ∧ r.errors ≠ []) := by
  have hsource : line ≠ "Source hash: " ++ r.sourceHash := by
    rintro rfl
    exact hlabels "Source hash" (by decide) ⟨": " ++ r.sourceHash, rfl⟩
  have hinput : line ∉ fileLine "Input" r.inputPath r.inputLength := fun hmem =>
    hlabels "Input" (by decide) (prefix_of_mem_fileLine hmem)
  have houtput : line ∉ fileLine "Output" r.outputPath r.outputLength := fun hmem =>
    hlabels "Output" (by decide) (prefix_of_mem_fileLine hmem)
  have hcounts : ∀ t : Table Int, ∀ e ∈ t.map countLine, Indented e := fun t e he => by
    obtain ⟨_, _, rfl⟩ := List.mem_map.1 he
    rfl
  have hitems : ∀ xs : List Text, ∀ e ∈ xs.map (("  - " : Text) ++ ·), Indented e := fun xs e he => by
    obtain ⟨_, _, rfl⟩ := List.mem_map.1 he
    rfl
  have hlandmarks : line ∈ landmarkLines r.landmarks ↔ line = "Fingerprint matches:" := by
    rw [landmarkLines, List.mem_cons, or_iff_left]
    split
    · exact fun hmem => hline (List.mem_singleton.1 hmem ▸ rfl)
    · exact fun hmem => hline (hcounts _ line hmem)
  have hstripped : (Table.sorted r.stripped).map countLine ≠ [] ↔ r.stripped ≠ [] := by
    rw [ne_eq, List.map_eq_nil_iff, ← List.length_eq_zero_iff, (Table.perm_sorted r.stripped).length_eq,
      List.length_eq_zero_iff]
  simp only [Report.lines, List.mem_append, List.mem_cons, hsource, hinput, houtput, hlandmarks, false_or,
    mem_underHeading_iff hline (hcounts _), mem_underHeading_iff hline (hitems _), hstripped, ne_eq, List.map_eq_nil_iff,
    or_assoc]

/-- The text of a report is its lines, joined, and these are the one list that is laid out as reports are. Headings
stand just over the sections that have entries, and a report whose counts were found in another order has the same
text. -/
theorem text_canonical (h : r.Proper) :
    r.text = Text.join "\n" r.lines ∧ (∀ lines, r.LaidOut lines ↔ lines = r.lines) ∧
      ("Fingerprint matches:" : Text) ∈ r.lines ∧
      (("Stripped browser references:" : Text) ∈ r.lines ↔ r.stripped ≠ []) ∧
      (("Warnings:" : Text) ∈ r.lines ↔ r.warnings ≠ []) ∧ (("Errors:" : Text) ∈ r.lines ↔ r.errors ≠ []) ∧
      ∀ r', r.Reordered r' → r'.text = r.text := by
  refine ⟨rfl, fun lines => laidOut_iff h, ?_, ?_, ?_, ?_, fun r' hr' => ?_⟩
  · rw [mem_lines_iff (by decide) (by decide)]
    exact .inl rfl
  · rw [mem_lines_iff (by decide) (by decide)]
    simp +decide
  · rw [mem_lines_iff (by decide) (by decide)]
    simp +decide
  · rw [mem_lines_iff (by decide) (by decide)]
    simp +decide
  · have hlines : r'.lines = r.lines := ((laidOut_iff (hr'.proper h)).1 (((laidOut_iff h).2 rfl).of_reordered hr')).symm
    rw [Report.text, Report.text, hlines]

def foundReport : Report where
  sourceHash := "6a1f3c2e"
  inputPath := some "in.js"
  outputPath := some []
  inputLength := 100
  landmarks := [("webSocketConstruction", 2), ("captchaCase", 1)]
  stripped := [("window.", 3)]
  warnings := ["webSocketConstruction matched 2 times"]

theorem proper_foundReport : foundReport.Proper := ⟨by decide, by decide⟩

theorem text_foundReport : foundReport.Proper ∧
    foundReport.LaidOut ["Source hash: 6a1f3c2e", "Input: in.js (100 chars)", "Fingerprint matches:",
      "  captchaCase: 1", "  webSocketConstruction: 2", "Stripped browser references:", "  window.: 3", "Warnings:",
      "  - webSocketConstruction matched 2 times"] ∧
    (("Errors:" : Text) ∈ foundReport.lines ↔ foundReport.errors ≠ []) ∧
    ({ foundReport with landmarks := foundReport.landmarks.reverse } : Report).text = foundReport.text := by
  obtain ⟨-, hlaid, -, -, -, herrors, hreordered⟩ := text_canonical proper_foundReport
  refine ⟨proper_foundReport, (hlaid _).2 ?_, herrors, hreordered _ ⟨List.reverse_perm _, .refl _, rfl⟩⟩
  have hlandmarks : Table.sorted foundReport.landmarks = foundReport.landmarks.reverse :=
    (Table.eq_sorted (List.reverse_perm _) (by decide)).symm
  have hstripped : Table.sorted foundReport.stripped = foundReport.stripped :=
    (Table.eq_sorted (.refl _) (by decide)).symm
  rw [Report.lines, landmarkLines, hlandmarks, hstripped]
  decide +kernel

end Rehost.Report
