import Rehost.Proofs.Script.Wanted

/-! No rule makes a token of another landmark than its own. What a rule writes around what it has captured holds none,
and its punctuation keeps what it has captured apart. -/
namespace Rehost
open Pattern

namespace Wanted

def word : Wanted → Text
  | roomInit => "HBInit"
  | socket => "WebSocket"
  | socketError => "onerror"
  | challenge => "recaptcha"
  | initGuard => "Can't init twice"
  | lookup => "noPlayer"

theorem word_infix_token (x : Wanted) : x.word <:+: x.token := by
  cases x <;> decide

theorem foreign_token (x : Wanted) : (exactly x.token).Foreign where
  edgeFree := rfl
  nonempty := x.token_nonempty
  colon := by cases x <;> exact lacks_of_mayHold (by decide)
  comma := by cases x <;> exact lacks_of_mayHold (by decide)
  opening := by cases x <;> exact lacks_of_mayHold (by decide)
  closing := by cases x <;> exact lacks_of_mayHold (by decide)

theorem token_lacks (x : Wanted) {c : Char} (hc : c = '(' ∨ c = ')' ∨ c = ';' ∨ c = '.') :
    (exactly x.token).Lacks c := by
  apply lacks_of_mayHold
  rcases hc with rfl | rfl | rfl | rfl <;> cases x <;> decide

end Wanted

/-- An origin that is given and names no landmark. -/
structure CleanOrigin (origin : Text) : Prop where
  given : origin ≠ []
  clean : ∀ x : Wanted, ¬ x.word <:+: origin

namespace Rule
open Wanted

variable {y : Wanted}

theorem occurrences_deferInit (hy : y ≠ .roomInit) {m : Match} {w : Text}
    (h : Landmark.roomInit.pattern.Reads w m.held) (origin a b : Text) :
    y.occurrences (a ++ deferInit.build m origin ++ b) ≤ y.occurrences (a ++ w ++ b) := by
  have hp := y.foreign_token
  obtain ⟨s₁, s₂, rfl⟩ := Landmark.roomInit_holds h
  have hcut : a ++ deferInit.build m origin ++ b = a ++ "promiseResolve" ++ Text.mark '(' ++
      (m.named "value" ++ Text.mark ')' ++ (([] : Text) ++ Text.mark ';' ++ b)) := by
    simp only [deferInit]
    simp [slots, Text.ofString]
  have hname : (exactly y.token).Apart a "promiseResolve" := by
    apply exactly_apart
    cases y <;> decide
  have hzero : (exactly y.token).places "promiseResolve" = 0 := by cases y <;> decide
  have hnew : y.occurrences (a ++ deferInit.build m origin ++ b) =
      y.occurrences a + y.occurrences (m.named "value") + y.occurrences b := by
    rw [hcut]
    unfold occurrences
    rw [hp.places_cut (y.token_lacks (by simp)), hp.places_cut (y.token_lacks (by simp)),
      hp.places_cut (y.token_lacks (by simp)), places_append rfl hname, hzero]
    simp only [places]
    omega
  have hold := places_append_le (p := exactly y.token) rfl (a ++ ("HBInit" ++ s₁ ++ "=" ++ s₂))
    (m.named "value" ++ (";" ++ b))
  have hfront := places_append_le (p := exactly y.token) rfl a ("HBInit" ++ s₁ ++ "=" ++ s₂)
  have hmiddle := places_append_le (p := exactly y.token) rfl (m.named "value") (";" ++ b)
  have hrest := places_append_le (p := exactly y.token) rfl ";" b
  have hwhole : a ++ ("HBInit" ++ s₁ ++ "=" ++ s₂ ++ m.named "value" ++ ";") ++ b =
      a ++ ("HBInit" ++ s₁ ++ "=" ++ s₂) ++ (m.named "value" ++ (";" ++ b)) := by simp
  rw [hnew, hwhole]
  unfold occurrences
  omega

theorem occurrences_origin {origin : Text} (ho : ¬ y.word <:+: origin) :
    y.occurrences (" \"" ++ origin ++ "\"") = 0 := by
  have hlacks : (exactly y.word).Lacks '"' := by
    apply lacks_of_mayHold
    cases y <;> decide
  have hempty : ¬ (exactly y.word).Denotes [] := by
    cases y <;> exact fun h => by simp [Denotes, word, Text.ofString] at h
  have horigin : (exactly y.word).places origin = 0 := by
    apply places_eq_zero rfl
    rintro ⟨a, w, b, hab, rfl⟩
    exact ho ⟨a, b, hab.symm⟩
  have hspace : (exactly y.word).places " " = 0 := by cases y <;> decide
  have hword : (exactly y.word).places (" \"" ++ origin ++ "\"") = 0 := by
    have hcut : " \"" ++ origin ++ "\"" = " " ++ ('"' : CodePoint) :: (origin ++ ('"' : CodePoint) :: ([] : Text)) := by
      simp [Text.ofString]
    rw [hcut, hlacks.places_append_cons rfl hempty, hlacks.places_append_cons rfl hempty, horigin, hspace]
    rfl
  apply places_eq_zero rfl
  rintro ⟨a, w, b, hab, rfl⟩
  obtain ⟨u, v, huv⟩ := y.word_infix_token
  have hpos : 0 < (exactly y.word).places (" \"" ++ origin ++ "\"") := by
    apply places_pos rfl hempty
    exact ⟨a ++ u, y.word, v ++ b, by simp [hab, ← huv], rfl⟩
  omega

theorem occurrences_openSocket (hsocket : y ≠ .socket) {origin : Text} (ho : ¬ y.word <:+: origin) {m : Match}
    {w : Text} (h : Landmark.socket.pattern.Reads w m.held) (a b : Text) :
    y.occurrences (a ++ openSocket.build m origin ++ b) ≤ y.occurrences (a ++ w ++ b) := by
  have hp := y.foreign_token
  obtain ⟨s₁, s₂, -, -, rfl, -⟩ := Landmark.socket_holds h
  have hpieces : ∀ x ∈ optionPieces, (exactly y.token).places x = 0 := by cases y <;> decide
  have hname : (exactly y.token).Apart a "new WebSocket" := by
    apply exactly_apart
    cases y <;> first | contradiction | decide
  have hzero : (exactly y.token).places "new WebSocket" = 0 := by
    cases y <;> first | contradiction | decide
  have hfront : y.occurrences (a ++ ("new WebSocket(" ++ m.named "args")) =
      y.occurrences a + y.occurrences (m.named "args") := by
    have hcut : a ++ ("new WebSocket(" ++ m.named "args") =
        a ++ "new WebSocket" ++ Text.mark '(' ++ m.named "args" := by
      simp [Text.ofString]
    rw [hcut]
    unfold occurrences
    rw [hp.places_cut (y.token_lacks (by simp)), places_append rfl hname, hzero]
    omega
  have hbehind : y.occurrences (")" ++ (m.named "tail" ++ b)) = y.occurrences (m.named "tail" ++ b) := by
    have := hp.places_cut (y.token_lacks (c := ')') (by simp)) [] (m.named "tail" ++ b)
    simpa [occurrences, places, Text.ofString] using this
  have hnew := places_openSocket hp hpieces m origin a b
  have horigin := occurrences_origin ho
  have hold := places_append_le (p := exactly y.token) rfl (a ++ ("new" ++ s₁ ++ "WebSocket" ++ s₂ ++ "("))
    (m.named "args" ++ (")" ++ (m.named "tail" ++ b)))
  have hleft := places_append_le (p := exactly y.token) rfl a ("new" ++ s₁ ++ "WebSocket" ++ s₂ ++ "(")
  have hmiddle := places_append_le (p := exactly y.token) rfl (m.named "args") (")" ++ (m.named "tail" ++ b))
  have hwhole : a ++ ("new" ++ s₁ ++ "WebSocket" ++ s₂ ++ "(" ++ m.named "args" ++ ")" ++ m.named "tail") ++ b =
      a ++ ("new" ++ s₁ ++ "WebSocket" ++ s₂ ++ "(") ++ (m.named "args" ++ (")" ++ (m.named "tail" ++ b))) := by simp
  rw [hwhole]
  unfold occurrences at *
  omega

theorem occurrences_reportSocketError (hy : y ≠ .socketError) {m : Match} {w : Text}
    (h : Landmark.socketError.pattern.Reads w m.held) (origin a b : Text) :
    y.occurrences (a ++ reportSocketError.build m origin ++ b) ≤ y.occurrences (a ++ w ++ b) := by
  have hp := y.foreign_token
  obtain ⟨x₁, x₂, x₃, x₄, x₅, rfl⟩ := Landmark.socketError_holds h
  have hcut : a ++ reportSocketError.build m origin ++ b =
      a ++ m.named "obj" ++ Text.mark '.' ++ (m.named "prop" ++ Text.mark '.' ++ ("onerror=function(err)" ++
        Text.mark '\x7b' ++ (m.named "method_obj" ++ Text.mark '.' ++ (m.named "method" ++ Text.mark '(' ++
        (m.named "truthy" ++ Text.mark ')' ++ (";debug && console.error(err)" ++ Text.mark '\x7d' ++
        (([] : Text) ++ Text.mark ';' ++ b))))))) := by
    simp [build_reportSocketError, Text.ofString]
  have hhead : (exactly y.token).places "onerror=function(err)" = 0 := by
    cases y <;> first | contradiction | decide
  have hbody : (exactly y.token).places ";debug && console.error(err)" = 0 := by cases y <;> decide
  have hnew : y.occurrences (a ++ reportSocketError.build m origin ++ b) =
      y.occurrences (a ++ m.named "obj") + y.occurrences (m.named "prop") + y.occurrences (m.named "method_obj") +
        y.occurrences (m.named "method") + y.occurrences (m.named "truthy") + y.occurrences b := by
    rw [hcut]
    unfold occurrences
    rw [hp.places_cut (y.token_lacks (by simp)), hp.places_cut (y.token_lacks (by simp)), hp.places_cut hp.opening,
      hp.places_cut (y.token_lacks (by simp)), hp.places_cut (y.token_lacks (by simp)),
      hp.places_cut (y.token_lacks (by simp)), hp.places_cut hp.closing, hp.places_cut (y.token_lacks (by simp)),
      hhead, hbody]
    simp only [places]
    omega
  have hold := sum_places_le (p := exactly y.token) rfl [a ++ m.named "obj", x₁, m.named "prop", x₂,
    m.named "method_obj", x₃, m.named "method", x₄, m.named "truthy", x₅, b]
  have hwhole : a ++ (m.named "obj" ++ x₁ ++ m.named "prop" ++ x₂ ++ m.named "method_obj" ++ x₃ ++ m.named "method" ++
      x₄ ++ m.named "truthy" ++ x₅) ++ b = [a ++ m.named "obj", x₁, m.named "prop", x₂, m.named "method_obj", x₃,
        m.named "method", x₄, m.named "truthy", x₅, b].flatten := by simp
  rw [hnew, hwhole]
  simp only [List.map_cons, List.map_nil, List.sum_cons, List.sum_nil] at hold
  unfold occurrences
  omega

theorem occurrences_refuseChallenge (hy : y ≠ .challenge) (m : Match) (origin a w b : Text) :
    y.occurrences (a ++ refuseChallenge.build m origin ++ b) ≤ y.occurrences (a ++ w ++ b) := by
  have hopen : ∀ w, (exactly y.token).Denotes w → y.token <+: w := by
    rintro w rfl
    exact List.prefix_refl _
  have htails : ∀ v ∈ noticeCall.tails, v = [] ∨ ¬ v <+: y.token ∧ ¬ y.token <+: v := by
    cases y <;> first | contradiction | decide +kernel
  have hne : y.token ≠ [] := by cases y <;> decide
  have hnew := places_refuseChallenge y.foreign_token (a := a) (b := b)
    (exactly_apart (by cases y <;> first | contradiction | decide) a)
    (by cases y <;> first | contradiction | decide)
    (apart_of_opening hopen htails b) (places_eq_zero rfl (not_standsIn_of_opening hopen hne htails)) m origin
  have hold := places_append_le (p := exactly y.token) rfl (a ++ w) b
  have hleft := places_append_le (p := exactly y.token) rfl a w
  unfold occurrences
  omega

end Rule
end Rehost
