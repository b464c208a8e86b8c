import Rehost.Proofs.Script.Stretch
import Rehost.Proofs.Script.Wanted

/-! The options of the transport as the landmarks behind it meet them. Their braces keep the guard, the look-up and the
error handler off them, whatever stands around; a challenge case either keeps off as well or hands them over whole. -/
namespace Rehost
open Pattern

/-- An origin that can close neither its quotation nor a call, and that assigns nothing. -/
structure PlainOrigin (origin : Text) : Prop where
  given : origin ≠ []
  quote : ('"' : CodePoint) ∉ origin
  closing : (')' : CodePoint) ∉ origin
  equals : ('=' : CodePoint) ∉ origin

namespace Rule

def optionsFront : Text := "\x7bheaders:\x7borigin: \""

def optionsBehind : Text := "\"\x7d, agent: proxyAgent\x7d"

theorem socketOptions_eq (origin : Text) : socketOptions origin = optionsFront ++ origin ++ optionsBehind := by
  simp [socketOptions, slots, optionsFront, optionsBehind, Text.ofString]

theorem socketOptions_cons (origin : Text) : ∃ x, socketOptions origin = ('\x7b' : CodePoint) :: x :=
  ⟨("headers:\x7borigin: \"" : Text) ++ origin ++ optionsBehind,
    by simp [socketOptions_eq, optionsFront, Text.ofString]⟩

theorem socketOptions_ne_nil (origin : Text) : socketOptions origin ≠ [] := by
  obtain ⟨x, h⟩ := socketOptions_cons origin
  simp [h]

theorem not_mem_socketOptions {origin : Text} {c : CodePoint} (hc : c ∉ optionsFront ++ optionsBehind)
    (ho : c ∉ origin) : c ∉ socketOptions origin := by
  simp only [List.mem_append, not_or] at hc
  simp [socketOptions_eq, hc, ho]

theorem avoids_options_of_lacks {p : Pattern} (hopen : p.Lacks '\x7b') (hclose : p.Lacks '\x7d') {origin : Text}
    (h : ¬ p.standsIn (socketOptions origin)) (a b : Text) : p.Avoids a (socketOptions origin) b := by
  apply avoids_of_apart _ _ h
  · obtain ⟨x, hx⟩ := socketOptions_cons origin
    rw [hx]
    exact hopen.apart_cons a (x ++ b)
  · have hbar : ∀ u v, ('\x7d' : CodePoint) ∈ u → v ≠ [] → ¬ p.Denotes (u ++ v) :=
      fun u v hu _ hw => hclose _ hw (by simp [hu])
    have hend : a ++ socketOptions origin = (a ++ (optionsFront ++ origin ++ ("\"\x7d, agent: proxyAgent" : Text))) ++
        [('\x7d' : CodePoint)] ++ [] := by
      simp [socketOptions_eq, optionsBehind, Text.ofString]
    rw [hend]
    refine apart_of_bar hbar (fun u v hu _ hua => ?_) _
    exact absurd (List.suffix_nil.1 hua) hu

theorem initGuard_avoids_options {origin : Text} (ho : PlainOrigin origin) (a b : Text) :
    Landmark.initGuard.pattern.Avoids a (socketOptions origin) b := by
  apply avoids_options_of_lacks (lacks_of_mayHold (by decide)) (lacks_of_mayHold (by decide))
  refine not_standsIn_of_mem (e := ')') (fun w hw => ?_) (not_mem_socketOptions (by decide) ho.closing)
  obtain ⟨l, k, rfl, -, hk⟩ := Landmark.initGuard_denotes hw
  obtain ⟨s, r, rfl, -, -⟩ := Landmark.guardRight_denotes hk
  simp [Text.ofString]

/-- A look-up has its parenthesis in front of its two quotation marks, and the options have none in front of theirs. -/
theorem lookup_not_in_options {origin : Text} (ho : PlainOrigin origin) :
    ¬ Landmark.lookup.pattern.standsIn (socketOptions origin) := by
  rintro ⟨a, w, b, heq, hw⟩
  obtain ⟨l, k, rfl, hl, -⟩ := (denotes_around
    [group (some "name") (most1 fun c => Text.isWord c || c = '$'), blanks, Landmark.lit "(", blanks]
    "\"noPlayer\"" _).1 hw
  obtain ⟨u, v, rfl, -, -⟩ := (denotes_around
    [group (some "name") (most1 fun c => Text.isWord c || c = '$'), blanks] "(" [blanks]).1 hl
  have hlq : ('"' : CodePoint) ∉ u ++ "(" ++ v := by
    refine lacks_of_mayHold (p := inOrder [group (some "name") (most1 fun c => Text.isWord c || c = '$'), blanks,
      Landmark.lit "(", blanks]) ?_ _ hl
    decide
  have ha : ('"' : CodePoint) ∉ a := by
    have hcount := congrArg (List.count ('"' : CodePoint)) heq
    have horigin := List.count_eq_zero.2 ho.quote
    have hfront : List.count ('"' : CodePoint) optionsFront = 1 := by decide
    have hbehind : List.count ('"' : CodePoint) optionsBehind = 1 := by decide
    have htoken : List.count ('"' : CodePoint) ("\"noPlayer\"" : Text) = 2 := by decide
    simp only [socketOptions_eq, List.count_append, horigin, hfront, hbehind, htoken] at hcount
    exact List.count_eq_zero.1 (by omega)
  have hq : ('"' : CodePoint) ∉ a ++ (u ++ "(" ++ v) := by
    rw [List.mem_append]
    exact not_or.2 ⟨ha, hlq⟩
  have hfront : ('"' : CodePoint) ∉ ("\x7bheaders:\x7borigin: " : Text) := by decide
  have heq : a ++ (u ++ "(" ++ v) ++ ('"' : CodePoint) :: (("noPlayer\"" : Text) ++ k ++ b) =
      ("\x7bheaders:\x7borigin: " : Text) ++ ('"' : CodePoint) :: (origin ++ optionsBehind) := by
    simpa [socketOptions_eq, optionsFront, Text.ofString] using heq.symm
  have hparen : ('(' : CodePoint) ∈ a ++ (u ++ "(" ++ v) := by simp [Text.ofString]
  rw [(append_cons_unique hq hfront heq).1] at hparen
  exact absurd hparen (by decide)

theorem lookup_avoids_options {origin : Text} (ho : PlainOrigin origin) (a b : Text) :
    Landmark.lookup.pattern.Avoids a (socketOptions origin) b :=
  avoids_options_of_lacks (lacks_of_mayHold (by decide)) (lacks_of_mayHold (by decide)) (lookup_not_in_options ho) a b

/-- A handler that began in front of the options would have its closing brace before their first colon. -/
theorem socketError_apart_front (origin a b : Text) :
    Landmark.socketError.pattern.Apart a (socketOptions origin ++ b) := by
  intro u v _ hv _ hvb hw
  have hlacks : Landmark.socketError.pattern.Lacks ':' := lacks_of_mayHold (by decide)
  obtain ⟨c, v, rfl⟩ := List.exists_cons_of_ne_nil hv
  obtain ⟨r, hr⟩ := hvb
  have hr : c :: v ++ r = ("\x7bheaders" : Text) ++ (':' : CodePoint) ::
      (("\x7borigin: \"" : Text) ++ origin ++ optionsBehind ++ b) := by
    rw [hr]
    simp [socketOptions_eq, optionsFront, Text.ofString]
  obtain rfl : c = '\x7b' := by simpa [Text.ofString] using congrArg List.head? hr
  have hshort : ('\x7b' : CodePoint) :: v <+: ("\x7bheaders" : Text) := by
    rcases List.append_eq_append_iff.1 hr with ⟨x, hx, -⟩ | ⟨x, hx, hx'⟩
    · exact ⟨x, hx.symm⟩
    · cases x with
      | nil => exact ⟨[], by simpa using hx⟩
      | cons d x =>
        obtain ⟨rfl, -⟩ := List.cons.inj hx'
        exact absurd (by simp [hx]) (hlacks _ hw)
  have hclose := Landmark.socketError_brace_behind hw (by simp)
  exact absurd (hshort.subset hclose) (by decide)

theorem socketError_apart_behind (origin a b : Text) :
    Landmark.socketError.pattern.Apart (a ++ socketOptions origin) b := by
  have hlacks : Landmark.socketError.pattern.Lacks ':' := lacks_of_mayHold (by decide)
  have hbar : ∀ u v, (':' : CodePoint) ∈ u → v ≠ [] → ¬ Landmark.socketError.pattern.Denotes (u ++ v) :=
    fun u v hu _ hw => hlacks _ hw (by simp [hu])
  have hbrace : Landmark.socketError.pattern.Apart (" proxyAgent\x7d" : Text) b := by
    intro u v hu _ hua _ hw
    obtain ⟨u', c, rfl⟩ := List.eq_nil_or_concat u |>.resolve_left hu
    obtain ⟨x, hx⟩ := hua
    obtain rfl : c = '\x7d' := by
      have := congrArg List.getLast? hx
      simpa [Text.ofString] using this
    have hopen := Landmark.socketError_brace hw (by simp)
    have : ('\x7b' : CodePoint) ∈ (" proxyAgent\x7d" : Text) := by
      rw [← hx]
      exact List.mem_append_right x hopen
    exact absurd this (by decide)
  have hsplit : a ++ socketOptions origin =
      (a ++ (optionsFront ++ origin ++ ("\"\x7d, agent" : Text))) ++ [(':' : CodePoint)] ++
        (" proxyAgent\x7d" : Text) := by
    simp [socketOptions_eq, optionsBehind, Text.ofString]
  rw [hsplit]
  exact apart_of_bar hbar hbrace _

theorem socketError_avoids_options {origin : Text}
    (h : ¬ Landmark.socketError.pattern.standsIn (socketOptions origin)) (a b : Text) :
    Landmark.socketError.pattern.Avoids a (socketOptions origin) b :=
  avoids_of_apart (socketError_apart_front origin a b) (socketError_apart_behind origin a b) h

theorem socketError_avoids_plain {origin : Text} (ho : PlainOrigin origin) (a b : Text) :
    Landmark.socketError.pattern.Avoids a (socketOptions origin) b := by
  apply socketError_avoids_options
  refine not_standsIn_of_mem (e := '=') (fun w hw => ?_) (not_mem_socketOptions (by decide) ho.equals)
  obtain ⟨u, v, rfl, -, -⟩ := (denotes_around
    [group (some "obj") Landmark.letters, Landmark.lit ".", group (some "prop") Landmark.letters,
      Landmark.lit ".onerror", blanks] "=" _).1 hw
  simp [Text.ofString]

/-! A challenge case. -/

/-- The first quotation mark of a challenge case opens its name, the one behind an origin is followed by a brace. -/
theorem challenge_behind_origin {origin y w v b : Text} (ho : ('"' : CodePoint) ∉ origin)
    (heq : origin ++ optionsBehind ++ b = y ++ w ++ v) (hw : Landmark.challenge.pattern.Denotes w) :
    origin.length ≤ y.length := by
  obtain ⟨u, k, rfl, hu, -⟩ := (denotes_around [Landmark.lit "case", blanks1] "\"recaptcha\"" _).1 hw
  have huq : ('"' : CodePoint) ∉ u :=
    lacks_of_mayHold (p := inOrder [Landmark.lit "case", blanks1]) (by decide) _ hu
  by_contra hlt
  have hy : y <+: origin ++ optionsBehind ++ b := ⟨u ++ "\"recaptcha\"" ++ k ++ v, by simp [heq]⟩
  obtain ⟨x, rfl⟩ := List.prefix_of_prefix_length_le hy ⟨optionsBehind ++ b, by simp⟩ (Nat.le_of_not_le hlt)
  have hxq : ('"' : CodePoint) ∉ x := fun h => ho (by simp [h])
  have heq : x ++ ('"' : CodePoint) :: (("\x7d, agent: proxyAgent\x7d" : Text) ++ b) =
      u ++ ('"' : CodePoint) :: (("recaptcha\"" : Text) ++ (k ++ v)) := by
    simpa [optionsBehind, Text.ofString] using heq
  have hrest := (append_cons_unique hxq huq heq).2.2
  exact absurd (congrArg List.head? hrest) (by simpa [Text.ofString] using by decide)

theorem challenge_not_inside {origin y w v b : Text} (ho : ('"' : CodePoint) ∉ origin)
    (heq : socketOptions origin ++ b = y ++ w ++ v) (hw : Landmark.challenge.pattern.Denotes w) :
    (socketOptions origin).length ≤ y.length := by
  have hhead : ∀ w, Landmark.challenge.pattern.Denotes w → w.head? = some ('c' : CodePoint) :=
    fun w => Landmark.challenge_head
  rw [socketOptions_eq] at heq ⊢
  have hwhole : ([] : Text) ++ optionsFront ++ (origin ++ optionsBehind ++ b) = y ++ w ++ v := by simpa using heq
  have hfront := start_of_head hhead hwhole hw (by decide)
  have hx : optionsFront <+: y ++ w ++ v := ⟨origin ++ optionsBehind ++ b, hwhole⟩
  have hy : y <+: y ++ w ++ v := ⟨w ++ v, by simp⟩
  obtain ⟨y, rfl⟩ := List.prefix_of_prefix_length_le hx hy (by simpa using hfront)
  have heq : origin ++ optionsBehind ++ b = y ++ w ++ v := by simpa using heq
  have horigin := challenge_behind_origin ho heq hw
  have hbehind := start_of_head (a := origin) (x := optionsBehind) (b := b) hhead heq hw (by decide)
  simp only [List.length_append]
  omega

theorem challenge_around_options {origin a b u w v : Text} (ho : PlainOrigin origin)
    (heq : a ++ socketOptions origin ++ b = u ++ w ++ v) (hw : Landmark.challenge.pattern.Denotes w) :
    u.length + w.length ≤ a.length ∨ a.length + (socketOptions origin).length ≤ u.length ∨
      ∃ y z, a = u ++ y ∧ b = z ++ v ∧ w = y ++ socketOptions origin ++ z := by
  have hlast : ∀ w, Landmark.challenge.pattern.Denotes w → w.getLast? = some (')' : CodePoint) := by
    intro w hw
    obtain ⟨x, rfl, -, -⟩ := Landmark.challenge_denotes hw
    simp [Text.ofString]
  rcases end_of_last hlast heq hw (not_mem_socketOptions (by decide) ho.closing) with hend | hend
  · exact .inl hend
  right
  have ha : a <+: a ++ socketOptions origin ++ b := ⟨socketOptions origin ++ b, by simp⟩
  have hu : u <+: a ++ socketOptions origin ++ b := ⟨w ++ v, by simp [heq]⟩
  rcases Nat.lt_or_ge u.length a.length with hlt | hge
  · right
    obtain ⟨y, rfl⟩ := List.prefix_of_prefix_length_le hu ha hlt.le
    have heq : y ++ socketOptions origin ++ b = w ++ v := by simpa using heq
    have hyx : y ++ socketOptions origin <+: w ++ v := ⟨b, heq⟩
    have hlen : (y ++ socketOptions origin).length ≤ w.length := by
      simp only [List.length_append] at hend ⊢
      omega
    obtain ⟨z, rfl⟩ := List.prefix_of_prefix_length_le hyx (List.prefix_append w v) hlen
    exact ⟨y, z, rfl, by simpa using heq, rfl⟩
  · left
    obtain ⟨y, rfl⟩ := List.prefix_of_prefix_length_le ha hu hge
    have := challenge_not_inside (y := y) ho.quote (by simpa using heq) hw
    rw [List.length_append]
    omega

theorem challenge_refill {origin origin' y z : Text} (ho' : (')' : CodePoint) ∉ origin')
    (hw : Landmark.challenge.pattern.Denotes (y ++ socketOptions origin ++ z)) :
    Landmark.challenge.pattern.Denotes (y ++ socketOptions origin' ++ z) := by
  obtain ⟨c, v, heq, hc, -, hv⟩ := Landmark.challenge_denotes_iff.1 hw
  have hbrace : ('\x7b' : CodePoint) ∉ c := lacks_of_mayHold (p := inOrder Landmark.challengeHead) (by decide) c hc
  -- The head of the case has no brace, so it ends in front of the options.
  obtain ⟨y, rfl⟩ : c <+: y := by
    obtain ⟨x, hx⟩ := socketOptions_cons origin
    rw [hx] at heq
    have heq : y ++ ('\x7b' : CodePoint) :: (x ++ z) = c ++ (v ++ ")") := by simpa using heq
    rcases List.append_eq_append_iff.1 heq with ⟨e, rfl, he⟩ | ⟨e, rfl, -⟩
    · cases e with
      | nil => simp
      | cons d e =>
        obtain ⟨rfl, -⟩ := List.cons.inj he
        exact absurd (by simp) hbrace
    · exact List.prefix_append c e
  have heq : y ++ socketOptions origin ++ z = v ++ ")" := by simpa using heq
  obtain ⟨z, e, rfl⟩ : ∃ z' e, z = z' ++ [e] := by
    rcases List.eq_nil_or_concat z with rfl | ⟨z', e, rfl⟩
    · have := congrArg List.getLast? heq
      exact absurd this (by simpa [socketOptions_eq, optionsBehind, Text.ofString] using by decide)
    · exact ⟨z', e, by simp⟩
  obtain ⟨rfl, he⟩ : y ++ socketOptions origin ++ z = v ∧ [e] = ")" := List.append_inj' (by simpa using heq) rfl
  refine Landmark.challenge_denotes_iff.2 ⟨c, y ++ socketOptions origin' ++ z, by simp [he], hc, ?_, ?_⟩
  · simp [socketOptions_ne_nil]
  · simp only [List.mem_append, not_or] at hv ⊢
    exact ⟨⟨hv.1.1, not_mem_socketOptions (by decide) ho'⟩, hv.2⟩

end Rule
end Rehost
