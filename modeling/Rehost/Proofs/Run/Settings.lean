import Rehost.Proofs.Run.Answer
import Rehost.Proofs.Settings.Override

/-! The settings of a run. A document makes settings or is a fault of them, unless a key of it is no text. The file
comes on top of the defaults and the command line on top of the file; each layer is checked on its own, and each field
is settled on its own. -/
namespace Rehost

namespace Settings

def TextKeys (d : Document) : Prop := ∀ entries, d = .mapping entries → ∀ e ∈ entries, ∃ key, e.1 = .text key

def Answers (x : Except Failure Settings) : Prop := (∃ s, x = .ok s) ∨ ∃ e, x = .error (.settings e)

variable {s : Settings} {t : Table Given} {es : List (Text × Datum)} {file : Text}

theorem answers_mapError (x : Except SettingsError Settings) : Answers (x.mapError .settings) := by
  cases x with
  | error e => exact .inr ⟨e, rfl⟩
  | ok s => exact .inl ⟨s, rfl⟩

theorem ofDatum_eq_text_iff {d : Datum} {key : Text} : Given.ofDatum d = .text key ↔ d = .text key := by
  cases d <;> simp [Given.ofDatum]

def mapping (es : List (Text × Datum)) : Document := .mapping (es.map fun e => (.text e.1, e.2))

/-- What the entries of a mapping give, the later one of two with one key. -/
def gives (es : List (Text × Datum)) : Table Given := Table.ofList (es.map fun e => (e.1, .ofDatum e.2))

theorem decides_mapping (file : Text) (es : List (Text × Datum)) :
    ∃ x, ofDocument file (mapping es) = Except.mapError .settings x ∧
      Decides (Accepted (gives es)) (({} : Settings).layered (gives es)) x := by
  obtain ⟨x, hx, hdecides⟩ := decides_override {} (es.map fun e => (e.1, Given.ofDatum e.2))
  refine ⟨x, hx.symm ▸ ?_, hdecides⟩
  simp [ofDocument, mapping, named, Function.comp_def, Given.ofDatum]

theorem exists_mapping {entries : List (Datum × Datum)} (h : TextKeys (.mapping entries)) :
    ∃ es, Document.mapping entries = mapping es := by
  have hkeys := h entries rfl
  clear h
  induction entries with
  | nil => exact ⟨[], rfl⟩
  | cons e entries ih =>
    obtain ⟨k, d⟩ := e
    obtain ⟨⟨key, rfl⟩, htail⟩ := List.forall_mem_cons.1 hkeys
    obtain ⟨es, hes⟩ := ih htail
    exact ⟨(key, d) :: es, by simpa [mapping] using hes⟩

theorem answers_of_textKeys {d : Document} (file : Text) (h : TextKeys d) : Answers (ofDocument file d) := by
  cases d with
  | nothing => exact .inl ⟨{}, rfl⟩
  | other => exact .inr ⟨_, rfl⟩
  | mapping entries =>
    obtain ⟨es, hes⟩ := exists_mapping h
    obtain ⟨x, hx, -⟩ := decides_mapping file es
    rw [hes, hx]
    exact answers_mapError x

theorem ofDocument_of_not_textKeys {d : Document} (file : Text) (h : ¬ TextKeys d) :
    ofDocument file d = .error .mixedKeys := by
  simp only [TextKeys, not_forall] at h
  obtain ⟨entries, rfl, ⟨k, v⟩, he, hkey⟩ := h
  refine override_unkeyed {} ⟨(.ofDatum k, .ofDatum v), List.mem_map.2 ⟨_, he, rfl⟩, fun key hk => ?_⟩
  exact hkey ⟨key, ofDatum_eq_text_iff.1 hk⟩

theorem exec_load_result {w : Machine} {p : Path} {t : Text} {d : Document} (hread : (w.exec (Host.readText p)).1 = .ok t)
    (hdocument : w.documents t = .ok d) : (w.exec (load p)).1 = ofDocument p.toText d := by
  have hof : Command.documentOf w p = .ok d := by
    rw [Command.documentOf, hread]
    change (w.documents t).mapError _ = _
    rw [hdocument]
    rfl
  rw [Command.exec_load, hof]

/-- A document makes settings, or a fault of theirs, exactly if all its keys are texts; with any other key it is refused
as something else. Loading a file comes to what its document comes to, whatever makes a document of its text. -/
theorem load_answers (file : Text) (d : Document) :
    (Answers (ofDocument file d) ↔ TextKeys d) ∧ (¬ TextKeys d → ofDocument file d = .error .mixedKeys) ∧
      ∀ (w : Machine) (p : Path) (t : Text), p.toText = file → (w.exec (Host.readText p)).1 = .ok t →
        w.documents t = .ok d → (w.exec (load p)).1 = ofDocument file d := by
  refine ⟨⟨fun hanswers => ?_, answers_of_textKeys file⟩, ofDocument_of_not_textKeys file, ?_⟩
  · by_contra hkeys
    rw [ofDocument_of_not_textKeys file hkeys] at hanswers
    rcases hanswers with ⟨s, hs⟩ | ⟨e, he⟩
    · contradiction
    · simp at he
  · rintro w p t rfl hread hdocument
    exact exec_load_result hread hdocument

def numberedMachine : Machine where
  disk := ⟨[([Utf8.nameBytes "c.yaml"], .file (Utf8.bytes "1: x\n"))], []⟩
  room := 0
  documents t := if t = "1: x\n" then .ok (.mapping [(.other "int", .text "x")]) else .error (.malformed "")

/-- A number is no name of a setting, but instead of saying that, loading meets a failure that is not one of settings.
-/
theorem not_every_document_answers : ¬ ∀ (w : Machine) (p : Path) (t : Text) (d : Document),
    (w.exec (Host.readText p)).1 = .ok t → w.documents t = .ok d → Answers (w.exec (load p)).1 := by
  intro h
  have hread : (numberedMachine.exec (Host.readText (.ofText "c.yaml"))).1 = .ok "1: x\n" := by rfl
  have hdocument : numberedMachine.documents "1: x\n" = .ok (.mapping [(.other "int", .text "x")]) := by rfl
  have hanswers := h _ _ _ _ hread hdocument
  have hkeys : ¬ TextKeys (.mapping [(.other "int", .text "x")]) := by
    intro hkeys
    obtain ⟨key, hkey⟩ := hkeys _ rfl _ List.mem_cons_self
    contradiction
  rw [exec_load_result hread hdocument, ofDocument_of_not_textKeys _ hkeys] at hanswers
  rcases hanswers with ⟨s, hs⟩ | ⟨e, he⟩
  · contradiction
  · simp at he

end Settings

namespace CommandLine
open Settings (Field Given)

def Arguments.given (a : Arguments) : Field → Supplied
  | .inputPath => a.input
  | .outputPath => a.output
  | .origin => a.origin
  | .artifacts => a.artifacts
  | .reportPath => a.reportPath

def Supplied.text? : Supplied → Option Text
  | text x => some x
  | _ => none

variable {a : Arguments} {f : Field}

def Arguments.layer (a : Arguments) : List (Text × Given) :=
  (Field.all.map fun f => (f.name, (a.given f).given)).filter fun e => e.2 ≠ .null

theorem overrides_eq (a : Arguments) : a.overrides.filter (fun e => e.2 ≠ .null) = Settings.named a.layer := by
  have hoverrides : a.overrides = Settings.named (Field.all.map fun f => (f.name, (a.given f).given)) := rfl
  rw [hoverrides, Settings.named, List.filter_map, Arguments.layer, Settings.named]
  rfl

theorem latest?_layer (h : ∀ f, a.given f ≠ .voided) (f : Field) :
    Table.latest? f.name a.layer = (a.given f).text?.map .text := by
  have hfilter : (Field.all.map fun f => (f.name, (a.given f).given)).filter (fun e => e.1 = f.name) =
      [(f.name, (a.given f).given)] := by
    cases f <;> rfl
  rw [Table.latest?, Arguments.layer, List.filter_filter]
  simp only [Bool.and_comm]
  rw [← List.filter_filter, hfilter]
  have hf := h f
  cases hgiven : a.given f with
  | absent => rfl
  | text x => rfl
  | voided => contradiction

theorem accepted_layer_iff (h : ∀ f, a.given f ≠ .voided) :
    Settings.Accepted (Table.ofList a.layer) ↔ ∀ f, a.given f ≠ .text [] := by
  rw [Settings.accepted_iff]
  have hkeys : ∀ key ∈ Table.keys (Table.ofList a.layer), ∃ f : Field, f.name = key := by
    intro key hkey
    obtain ⟨e, he, rfl⟩ := Table.mem_keys_ofList.1 hkey
    obtain ⟨f, -, rfl⟩ := List.mem_map.1 (List.mem_filter.1 he).1
    exact ⟨f, rfl⟩
  rw [and_iff_right hkeys]
  refine forall_congr' fun f => ?_
  rw [Table.get?_ofList, latest?_layer h]
  cases a.given f <;> simp [Supplied.text?, Field.Takes]

end CommandLine

namespace Command
open CommandLine Settings

/-- What the file of settings gives: the entries of its mapping; nothing, if it is empty or there is none. -/
inductive FileGives (a : Arguments) (w : Machine) : Table Given → Prop where
  | absent : a.config.nonempty? = none → FileGives a w []
  | empty {name t : Text} : a.config.nonempty? = some name → (w.exec (Host.readText (.ofText name))).1 = .ok t →
      w.documents t = .ok .nothing → FileGives a w []
  | mapping {name t : Text} {es : List (Text × Datum)} : a.config.nonempty? = some name →
      (w.exec (Host.readText (.ofText name))).1 = .ok t → w.documents t = .ok (mapping es) → FileGives a w (gives es)

variable {a : Arguments} {w : Machine} {t : Table Given}

/-- What the command line does not give, the file does, and what neither gives is the default. -/
def settled (a : Arguments) (t : Table Given) (f : Field) : Given :=
  match (a.given f).text?, Table.get? f.name t with
  | some x, _ => f.taken (.text x)
  | none, some g => f.taken g
  | none, none => ({} : Settings).held f

theorem exec_settingsOf_document {name text : Text} {d : Document} (hname : a.config.nonempty? = some name)
    (hread : (w.exec (Host.readText (.ofText name))).1 = .ok text) (hdocument : w.documents text = .ok d) :
    (w.exec (settingsOf a)).1 = ofDocument (Path.ofText name).toText d >>= (·.merged a.overrides) := by
  have hresult := exec_load_result hread hdocument
  rcases hload : w.exec (load (.ofText name)) with ⟨loaded, w'⟩
  rw [hload] at hresult
  rw [exec_settingsOf_file hname hload, ← hresult]

theorem decides_file (h : FileGives a w t) :
    ∃ x, (w.exec (settingsOf a)).1 = Except.mapError .settings x >>= (·.merged a.overrides) ∧
      Decides (Accepted t) (({} : Settings).layered t) x := by
  have hnone : Decides (Accepted []) (({} : Settings).layered []) (.ok {}) :=
    .inl ⟨fun key g hg => by simp at hg, {}, rfl, fun f => rfl⟩
  cases h with
  | absent hname =>
    refine ⟨.ok {}, ?_, hnone⟩
    unfold settingsOf
    simp only [hname]
    rfl
  | empty hname hread hdocument =>
    refine ⟨.ok {}, ?_, hnone⟩
    rw [exec_settingsOf_document hname hread hdocument]
    rfl
  | mapping hname hread hdocument =>
    obtain ⟨x, hx, hdecides⟩ := decides_mapping _ _
    refine ⟨x, ?_, hdecides⟩
    rw [exec_settingsOf_document hname hread hdocument, hx]

theorem decides_settingsOf (hfile : FileGives a w t) (hgiven : ∀ f, a.given f ≠ .voided) :
    ∃ x, (w.exec (settingsOf a)).1 = Except.mapError .settings x ∧
      Decides (Accepted t ∧ ∀ f, a.given f ≠ .text []) (settled a t) x := by
  obtain ⟨x, hx, ⟨haccepted, base, rfl, hbase⟩ | ⟨hnot, e, rfl⟩⟩ := decides_file hfile
  · obtain ⟨y, hy, hdecides⟩ := decides_override base a.layer
    refine ⟨y, ?_, ?_⟩
    · rw [hx, ← hy, ← overrides_eq]
      rfl
    · have hsettled : base.layered (Table.ofList a.layer) = settled a t := by
        funext f
        rw [layered, Table.get?_ofList, latest?_layer hgiven, settled, hbase, layered]
        cases (a.given f).text? <;> cases Table.get? f.name t <;> rfl
      rw [← hsettled]
      simpa [haccepted, accepted_layer_iff hgiven] using hdecides
  · exact ⟨.error e, hx, .inr ⟨fun h => hnot h.1, e, rfl⟩⟩

/-- A run has settings exactly if its file names settings only, each of them takes what the file gives it, and no option
was given an empty text; all else is a fault of the settings, whatever the command line would have put over it. Each
field holds what the command line gives it, or else what the file does, or else its default. Overrides that are put on
settings one after the other are like one mapping with the later one written over the earlier one. -/
theorem settingsOf_settled (hfile : FileGives a w t) (hgiven : ∀ f, a.given f ≠ .voided) :
    let out := (w.exec (settingsOf a)).1
    ((∃ s, out = .ok s) ↔ Accepted t ∧ ∀ f, a.given f ≠ .text []) ∧ Answers out ∧
      (∀ s, out = .ok s → ∀ f, s.held f = settled a t f) ∧
      ∀ (c c₁ : Settings) (earlier later : List (Value × Value)), Value.Distinct earlier →
        c.mergedValue (.table earlier) = .ok c₁ → (∃ s, c.mergedValue (.table later) = .ok s) →
        ∃ c₂, c₁.mergedValue (.table later) = .ok c₂ ∧ c.mergedValue (.table (overlaid earlier later)) = .ok c₂ := by
  obtain ⟨x, hx, hdecides⟩ := decides_settingsOf hfile hgiven
  intro out
  have hout : out = Except.mapError .settings x := hx
  refine ⟨?_, hout ▸ answers_mapError x, ?_, fun c c₁ earlier later => mergedValue_overlaid⟩
  · rcases hdecides with ⟨hallowed, s, rfl, -⟩ | ⟨hnot, e, rfl⟩
    · exact ⟨fun _ => hallowed, fun _ => ⟨s, hout⟩⟩
    · simp [hout, Except.mapError, hnot]
  · intro s hs
    rcases hdecides with ⟨-, s', rfl, hheld⟩ | ⟨-, e, rfl⟩
    · obtain rfl : s' = s := by simpa [hout, Except.mapError] using hs
      exact hheld
    · simp [hout, Except.mapError] at hs

def settledMachine : Machine where
  disk := ⟨[([Utf8.nameBytes "c.yaml"], .file (Utf8.bytes "output_path: a.js\n"))], []⟩
  room := 0
  documents t := if t = "output_path: a.js\n" then .ok (mapping [("output_path", .text "a.js")]) else .error (.malformed "")

def settledArguments : Arguments := { config := .text "c.yaml", origin := .text "o" }

theorem fileGives_settled : FileGives settledArguments settledMachine (gives [("output_path", .text "a.js")]) := by
  have hread : (settledMachine.exec (Host.readText (.ofText "c.yaml"))).1 = .ok "output_path: a.js\n" := by rfl
  exact .mapping rfl hread (by rfl)

theorem accepted_settled : Accepted (gives [("output_path", .text "a.js")]) := by
  intro key g hg
  have hgives : gives [("output_path", .text "a.js")] = [(("output_path" : Text), Given.text "a.js")] := rfl
  rw [hgives, Table.get?] at hg
  split at hg
  · next hkey =>
    obtain rfl := Option.some.inj hg
    exact ⟨.outputPath, hkey, by decide⟩
  · contradiction

/-- The output is that of the file, the origin that of the command line, the input the default. -/
theorem settingsOf_settledMachine :
    FileGives settledArguments settledMachine (gives [("output_path", .text "a.js")]) ∧
    (∀ f, settledArguments.given f ≠ .voided) ∧
    (∃ s, (settledMachine.exec (settingsOf settledArguments)).1 = .ok s ∧ s.held .outputPath = .path (.ofText "a.js") ∧
      s.held .origin = .text "o" ∧ s.held .inputPath = ({} : Settings).held .inputPath) ∧
    ({} : Settings).mergedValue (.table [(.text "origin", .text "o"), (.text "artifacts", .text "d")]) =
      .ok { origin := "o", artifacts := some (.ofText "d") } := by
  have hgiven : ∀ f, settledArguments.given f ≠ .voided := by
    intro f
    cases f <;> decide
  obtain ⟨hsettles, -, hheld, hoverlaid⟩ := settingsOf_settled fileGives_settled hgiven
  obtain ⟨s, hs⟩ := hsettles.2 ⟨accepted_settled, by intro f; cases f <;> decide⟩
  refine ⟨fileGives_settled, hgiven, ⟨s, hs, ?_, ?_, ?_⟩, ?_⟩
  · rw [hheld s hs]
    decide
  · rw [hheld s hs]
    decide
  · rw [hheld s hs]
    decide
  · have hlater : ({ origin := "o" } : Settings).mergedValue
        (.table [(.text "artifacts", .text "d"), (.text "origin", .null)]) =
        .ok { origin := "o", artifacts := some (.ofText "d") } := eq_ok_of_toOption (by decide +kernel)
    obtain ⟨c₂, hc₂, hboth⟩ := hoverlaid {} { origin := "o" }
      [(.text "origin", .text "o"), (.text "artifacts", .null)] [(.text "artifacts", .text "d"), (.text "origin", .null)]
      (by decide) (eq_ok_of_toOption (by decide +kernel))
      ⟨{ artifacts := some (.ofText "d") }, eq_ok_of_toOption (by decide +kernel)⟩
    obtain rfl := Except.ok.inj (hlater.symm.trans hc₂)
    exact hboth

end Command
end Rehost
