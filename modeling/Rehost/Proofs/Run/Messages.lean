import Rehost.Proofs.Run.Trail
import Rehost.Proofs.Script.BuildHash

/-! What a conversion says in the end. Whatever it fails with, it says so on one line, because what may hold a line
break is quoted there; and the hash of a build is on one line too. -/
namespace Rehost

namespace Text

variable {s t : Text}

def OneLine (t : Text) : Prop := ('\n' : CodePoint) ∉ t

instance (t : Text) : Decidable t.OneLine := inferInstanceAs (Decidable (¬ _))

theorem OneLine.append (hs : s.OneLine) (ht : t.OneLine) : OneLine (s ++ t) := fun h => (List.mem_append.1 h).elim hs ht

theorem Visible.oneLine (h : t.Visible) : t.OneLine := h.not_mem_lineFeed

theorem oneLine_decimal (n : Nat) : OneLine (ofString (ToString.toString n)) := by
  have hdigits : ofString (ToString.toString n) = Decimal.digitsOf n := by
    change (String.ofList (Nat.toDigits 10 n)).toList.map CodePoint.ofChar = _
    rw [String.toList_ofList]
    rfl
  rw [hdigits]
  exact (Decimal.visible_digitsOf n).oneLine

theorem visible_numbered (n : Nat) : (numbered n).Visible := by
  unfold numbered
  split
  · exact .cons (by decide) (.cons (by decide) (visible_hex 2 n))
  split
  · exact .cons (by decide) (.cons (by decide) (visible_hex 4 n))
  · exact .cons (by decide) (.cons (by decide) (visible_hex 8 n))

theorem oneLine_quoteChar {quote : CodePoint} (hquote : quote ≠ '\n') (c : CodePoint) : (quoteChar quote c).OneLine := by
  unfold quoteChar
  split
  · next hescaped =>
    have hc : c ≠ '\n' := by
      rintro rfl
      simp only [Bool.or_eq_true, decide_eq_true_eq] at hescaped
      exact hescaped.elim (fun h => hquote h.symm) (by decide)
    simpa [OneLine, hc.symm] using (by decide : ('\n' : CodePoint) ≠ '\\')
  split
  · decide
  · next hc =>
    split
    · decide
    split
    · decide
    split
    · simpa [OneLine] using fun h => hc h.symm
    · exact (visible_numbered _).oneLine

theorem oneLine_quoted (t : Text) : (quoted t).OneLine := by
  have hquote : ∀ single double, quoteFor single double ≠ '\n' := by decide
  unfold quoted
  intro h
  rcases List.mem_append.1 h with h | h
  · rcases List.mem_cons.1 h with h | h
    · exact hquote _ _ h.symm
    · obtain ⟨c, -, hc⟩ := List.mem_flatMap.1 h
      exact oneLine_quoteChar (hquote _ _) c hc
  · exact hquote _ _ (List.mem_singleton.1 h).symm

end Text

open Text Context

/-! The failures of reading and writing files. -/

theorem Utf8.Gap.oneLine_message (g : Utf8.Gap) : g.message.OneLine := by
  unfold message
  refine OneLine.append (OneLine.append (by decide) ?_) (by decide)
  split
  · exact OneLine.append (OneLine.append (OneLine.append (by decide) (visible_numbered _).oneLine) (by decide))
      (oneLine_decimal _)
  · exact OneLine.append (OneLine.append (OneLine.append (by decide) (oneLine_decimal _)) (by decide))
      (oneLine_decimal _)

theorem Utf8.Fault.oneLine_message (f : Utf8.Fault) : f.message.OneLine := by
  have hreason : f.flaw.reason.OneLine := by cases f.flaw <;> decide
  unfold message
  refine OneLine.append (OneLine.append (OneLine.append (by decide) ?_) (by decide)) hreason
  split
  · exact OneLine.append (OneLine.append (OneLine.append (by decide) (visible_hex 2 _).oneLine) (by decide))
      (oneLine_decimal _)
  · exact OneLine.append (OneLine.append (OneLine.append (by decide) (oneLine_decimal _)) (by decide))
      (oneLine_decimal _)

namespace DiskError

theorem oneLine_numbered {reason : Text} (h : reason.OneLine) (number : Nat) : (numbered number reason).OneLine :=
  OneLine.append (OneLine.append (OneLine.append (by decide) (oneLine_decimal _)) (by decide)) h

theorem oneLine_located {reason : Text} (h : reason.OneLine) (number : Nat) (p : Path) :
    (located number reason p).OneLine :=
  ((oneLine_numbered h number).append (by decide)).append (oneLine_quoted _)

theorem oneLine_message (e : DiskError) : e.message.OneLine := by
  obtain ⟨fault, p⟩ := e
  cases fault with
  | notFound | alreadyThere | notDirectory | isDirectory => exact oneLine_located (by decide) _ p
  | badName => exact (by decide : OneLine "embedded null byte")
  | tooDeep => exact (by decide : OneLine "maximum recursion depth exceeded")
  | unencodable g => exact g.oneLine_message
  | unwritten number reason => exact oneLine_numbered reason.oneLine number
  | other number reason => exact oneLine_located reason.oneLine number p

end DiskError

theorem Failure.Unwritten.oneLine {f : Failure} (h : f.Unwritten) : f.message.OneLine := by
  cases h with
  | disk e => exact e.oneLine_message
  | unencodable g => exact g.oneLine_message

/-! A landmark that is missing is named as the rules name it. -/

namespace Landmark

variable {l : Landmark} {t stage : Text} {role : Absence.Role} {a : Absence}

theorem oneLine_of_require (hl : l ∈ all) (hstage : stage.OneLine) (h : l.require t stage role = .error a) :
    a.message.OneLine := by
  have hnames : ∀ l ∈ all, l.name.OneLine ∧ l.description.OneLine := by decide
  obtain ⟨hname, hdescription⟩ := hnames l hl
  unfold require at h
  split at h
  · contradiction
  obtain rfl := Except.error.inj h
  have hfound : OneLine (stage ++ ": failed to find " ++ l.name ++ " pattern") :=
    ((hstage.append (by decide)).append hname).append (by decide)
  simp only [Absence.message]
  split
  · exact hfound
  · exact ((hfound.append (by decide)).append hdescription).append (by decide)

end Landmark

namespace Rule

theorem oneLine_of_apply {r : Rule} {origin t : Text} {a : Absence} (hr : r.landmark ∈ Landmark.all)
    (h : r.apply origin t = .error a) : a.message.OneLine :=
  Landmark.oneLine_of_require hr (by decide) (lift_eq_error h)

theorem oneLine_of_applyFrom {rs : List Rule} {origin t : Text} {counts : Table Nat} {a : Absence}
    (hrs : ∀ r ∈ rs, r.landmark ∈ Landmark.all) (h : applyFrom origin counts rs t = .error a) : a.message.OneLine := by
  induction rs generalizing t counts with
  | nil => contradiction
  | cons r rs ih =>
    obtain ⟨hr, hrs⟩ := List.forall_mem_cons.1 hrs
    rcases bind_eq_error h with h | ⟨_, -, h⟩
    · exact oneLine_of_apply hr h
    · exact ih hrs h

end Rule

theorem Capability.oneLine_of_inject {t : Text} {a : Absence} (h : inject t = .error a) : a.message.OneLine := by
  rcases lift₂_eq_error h with hguard | hlookup
  · exact Landmark.oneLine_of_require (by simp [Landmark.all]) (by decide) hguard
  · exact Landmark.oneLine_of_require (by simp [Landmark.all]) (by decide) hlookup

namespace Pass

variable {p : Pass} {c c' : Context} {noticed : Json} {f : Failure}

theorem oneLine_of_apply (hc : c.NamesOrigin) (h : p.apply c = .error f) : f.message.OneLine := by
  obtain ⟨origin, horigin⟩ := hc
  cases p with
  | buildHash | browser | envelope => contradiction
  | rules =>
    cases hrun : Rule.applyAll origin Rule.all c.stageText with
    | error a =>
      obtain rfl := Except.error.inj ((apply_rules_of_error horigin hrun).symm.trans h)
      exact Rule.oneLine_of_applyFrom (by simp [Rule.all, Landmark.all, Rule.deferInit, Rule.openSocket,
        Rule.reportSocketError, Rule.refuseChallenge]) hrun
    | ok result => simp [apply_rules_of_ok horigin hrun] at h
  | capabilities =>
    cases hrun : Capability.inject c.stageText with
    | error a =>
      obtain rfl := Except.error.inj ((apply_capabilities_of_error hrun).symm.trans h)
      exact Capability.oneLine_of_inject hrun
    | ok injected => simp [apply_capabilities_of_ok hrun] at h

theorem oneLine_name (p : Pass) : p.name.OneLine := by
  cases p <;> decide

end Pass

/-! The hash of a build. -/

theorem BuildHash.oneLine_extract (source : Text) : (extract source).OneLine := by
  unfold extract find?
  cases h : Landmark.buildHash.search? (leadingComment source) with
  | none => decide
  | some m =>
    obtain ⟨a, b, hleftmost⟩ := leftmost_of_search? h
    exact fun hmem => absurd (hleftmost.hash.2 _ hmem) (by decide)

/-! A conversion. -/

namespace Registry

theorem oneLine_blame {f : Failure} (h : f.message.OneLine) (p : Pass) (finished : List (Text × Binary64)) :
    (blame p.name finished f).message.OneLine := by
  unfold blame
  split
  · exact h
  · exact OneLine.append (OneLine.append (OneLine.append (by decide) p.oneLine_name) (by decide)) h

end Registry

theorem Trail.namesOrigin {c c' : Context} {stages : List Stage} (h : Trail c stages c') (hc : c.NamesOrigin) :
    c'.NamesOrigin := by
  induction h with
  | nil c => exact hc
  | cons happly _ ih =>
    have hnext := Pass.namesOrigin_of_apply happly hc
    exact ih hnext

theorem Pass.oneLine_hash {p : Pass} {c c' : Context} {noticed : Json} (h : p.apply c = .ok (noticed, c'))
    (hc : c.hash.OneLine) : c'.hash.OneLine := by
  cases p with
  | buildHash =>
    obtain ⟨-, rfl⟩ := Prod.mk.inj (Except.ok.inj h)
    exact BuildHash.oneLine_extract _
  | browser | envelope =>
    obtain ⟨-, rfl⟩ := Prod.mk.inj (Except.ok.inj h)
    exact hc
  | rules =>
    obtain ⟨_, _, _, -, -, -, rfl⟩ := apply_rules_eq_ok h
    exact hc
  | capabilities =>
    obtain ⟨_, -, -, rfl⟩ := apply_capabilities_eq_ok h
    exact hc

theorem Trail.oneLine_hash {c c' : Context} {stages : List Stage} (h : Trail c stages c') (hc : c.hash.OneLine) :
    c'.hash.OneLine := by
  induction h with
  | nil c => exact hc
  | cons happly _ ih =>
    have hnext := Pass.oneLine_hash happly hc
    exact ih hnext

namespace Pipeline

variable {c c' : Context} {w w' : Machine}

theorem oneLine_of_run {f : Failure} (hc : c.NamesOrigin) (h : exec registry.run c w = (.error f, c', w')) :
    f.message.OneLine := by
  rcases exec_registry_run c w with
    ⟨_, _, _, -, hok⟩ | ⟨_, p, _, times, c₁, w₁, g, _, _, -, hsucceeds, hfails, herror⟩
  · simp [h] at hok
  · obtain ⟨rfl, -⟩ : f = Registry.blame p.name times g ∧ _ := by simpa [h] using herror
    obtain ⟨stages, -, htrail⟩ := trail_of_succeeds hsucceeds
    refine Registry.oneLine_blame ?_ p times
    rcases Pass.step_eq_error hfails with ⟨happly, -⟩ | hunwritten
    · exact Pass.oneLine_of_apply (htrail.namesOrigin hc) happly
    · exact hunwritten.oneLine

theorem oneLine_hash_of_run {times : List (Text × Binary64)} (hc : c.hash.OneLine)
    (h : exec registry.run c w = (.ok times, c', w')) : c'.hash.OneLine := by
  rcases exec_registry_run c w with ⟨_, _, _, hsucceeds, hok⟩ | ⟨_, _, _, _, _, _, _, _, _, -, -, -, herror⟩
  · obtain ⟨-, rfl, -⟩ : _ ∧ c' = _ ∧ _ := by simpa [h] using hok
    obtain ⟨stages, -, htrail⟩ := trail_of_succeeds hsucceeds
    exact htrail.oneLine_hash hc
  · simp [h] at herror

end Pipeline

namespace Conversion

variable {s : Settings} {dryRun : Bool} {trace : Option LogId} {c c' : Context} {w w' : Machine}

theorem oneLine_of_readSource {p : Path} {f : Failure} (h : exec (Host.readSource p) c w = (.error f, c', w')) :
    f.message.OneLine := by
  rcases exec_bind_eq_error h with h | ⟨_, _, _, -, h⟩
  · rcases exec_bind_eq_error h with hread | ⟨bytes, _, _, -, h⟩
    · obtain ⟨e, -, rfl⟩ : ∃ e, _ ∧ f = .disk e := mapError_eq_error (congrArg Prod.fst hread)
      exact e.oneLine_message
    · cases hdecode : Utf8.decode bytes with
      | ok t => simp [hdecode] at h
      | error g =>
        obtain ⟨rfl, -⟩ : .undecodable g = f ∧ _ := by simpa [hdecode] using h
        exact g.oneLine_message
  · rcases exec_bind_eq_error h with hnote | ⟨_, _, _, -, hpure⟩
    · simp at hnote
    · simp at hpure

theorem exec_start_contextOf {source : Text} {r : Report} {result : Except Failure Unit}
    (h : exec (start (contextOf s trace source r)) c w = (result, c', w')) :
    c' = (contextOf s trace source r).prepared ∧ ∀ f, result = .error f → f.message.OneLine := by
  rw [start, exec_bind, exec_change] at h
  simp only at h
  cases hdir : (contextOf s trace source r).artifacts with
  | none =>
    simp only [hdir, exec_pure, Prod.mk.injEq] at h
    obtain ⟨rfl, rfl, -⟩ := h
    exact ⟨rfl, by simp⟩
  | some dir =>
    simp only [hdir, exec_makeDirectories, Prod.mk.injEq] at h
    obtain ⟨rfl, rfl, -⟩ := h
    refine ⟨rfl, fun f hf => ?_⟩
    obtain ⟨e, -, rfl⟩ := mapError_eq_error hf
    exact e.oneLine_message

theorem oneLine_of_deliver {f : Failure} (h : exec (deliver s dryRun) c w = (.error f, c', w')) : f.message.OneLine := by
  rw [deliver, exec_bind, exec_current] at h
  cases dryRun with
  | true => simp at h
  | false =>
    simp only [Bool.false_eq_true, if_false] at h
    rcases exec_bind_eq_error h with hwrite | ⟨_, _, _, -, hnote⟩
    · exact (unwritten_of_writeText hwrite).oneLine
    · simp at hnote

theorem context_of_deliver (h : exec (deliver s dryRun) c w = (.ok (), c', w')) : c' = c := by
  rw [deliver, exec_bind, exec_current] at h
  cases dryRun with
  | true =>
    simp only [if_true, exec_note, Prod.mk.injEq] at h
    exact h.2.1.symm
  | false =>
    simp only [Bool.false_eq_true, if_false] at h
    obtain ⟨_, c₁, w₁, hwrite, hnote⟩ := exec_bind_eq_ok h
    simp only [exec_note, Prod.mk.injEq] at hnote
    exact hnote.2.1.symm.trans (context_of_writeText hwrite)

/-- Whatever a conversion fails with, it says so on one line. -/
theorem oneLine_of_run {f : Failure} (h : exec (run s dryRun trace) c w = (.error f, c', w')) : f.message.OneLine := by
  rcases exec_bind_eq_error h with hread | ⟨source, c₁, w₁, -, h⟩
  · exact oneLine_of_readSource hread
  rw [exec_bind, exec_current] at h
  simp only at h
  rcases exec_bind_eq_error h with hstart | ⟨_, c₂, w₂, hstart, h⟩
  · exact (exec_start_contextOf hstart).2 f rfl
  obtain ⟨rfl, -⟩ := exec_start_contextOf hstart
  rcases exec_bind_eq_error h with hpasses | ⟨_, c₃, w₃, -, h⟩
  · exact Pipeline.oneLine_of_run (c := (contextOf s trace source c₁.report).prepared)
      (namesOrigin_contextOf s trace source c₁.report) hpasses
  rcases exec_bind_eq_error h with hdeliver | ⟨_, c₄, w₄, -, h⟩
  · exact oneLine_of_deliver hdeliver
  · simp at h

theorem oneLine_hash_of_run {times : List (Text × Binary64)}
    (h : exec (run s dryRun trace) c w = (.ok times, c', w')) : c'.hash.OneLine := by
  obtain ⟨source, c₁, w₁, -, h⟩ := exec_bind_eq_ok h
  rw [exec_bind, exec_current] at h
  obtain ⟨_, c₂, w₂, hstart, h⟩ := exec_bind_eq_ok h
  obtain ⟨rfl, -⟩ := exec_start_contextOf hstart
  obtain ⟨_, c₃, w₃, hpasses, h⟩ := exec_bind_eq_ok h
  obtain ⟨_, c₄, w₄, hdeliver, h⟩ := exec_bind_eq_ok h
  obtain ⟨-, rfl, -⟩ : _ ∧ c₄ = c' ∧ _ := by simpa using h
  rw [context_of_deliver hdeliver]
  exact Pipeline.oneLine_hash_of_run (c := (contextOf s trace source c₁.report).prepared)
    (by change BuildHash.unknown.OneLine; decide) hpasses

end Conversion
end Rehost
