import Rehost.Proofs.Script.Replacement

/-! How many init guards the rules leave. A rule takes away the guards that overlap what it replaces and may make some
that overlap what it writes. What the transport, its error handler and the challenge case become is never overlapped,
and no guard overlaps an error handler, so the other overlaps alone decide. -/
namespace Rehost
namespace Landmark
open Pattern

def guardsOver (t : Text) (start stop : Nat) : Nat :=
  (initGuard.pattern.findAll t).countP (·.overlaps start stop)

theorem initGuard_foreign : initGuard.pattern.Foreign where
  edgeFree := initGuard_edgeFree
  nonempty := initGuard_nonempty
  colon := lacks_of_mayHold (by decide)
  comma := lacks_of_mayHold (by decide)
  opening := lacks_of_mayHold (by decide)
  closing := lacks_of_mayHold (by decide)

theorem initGuard_count_append (a x b : Text) :
    initGuard.count (a ++ x ++ b) =
      initGuard.count a + initGuard.count b + guardsOver (a ++ x ++ b) a.length (a.length + x.length) :=
  initGuard_discrete.count_append a x b

theorem guardsOver_eq_zero {a x b : Text}
    (h : initGuard.pattern.places (a ++ x ++ b) = initGuard.pattern.places a + initGuard.pattern.places b) :
    guardsOver (a ++ x ++ b) a.length (a.length + x.length) = 0 := by
  have happend := initGuard_count_append a x b
  simp only [count, initGuard_discrete.count_eq_places] at happend
  omega

end Landmark

namespace Rule
open Pattern Landmark

/-- What stands in front of the options of a socket is no part of a guard: nothing that closes a parenthesis is left in
it, and a guard opens none behind its last closing one. -/
theorem guards_openSocket_left {args : Text} (hargs : (')' : CodePoint) ∉ args) (a : Text) :
    initGuard.pattern.places (a ++ ("new WebSocket(" ++ args)) = initGuard.pattern.places a := by
  have hclose : (')' : CodePoint) ∉ ("new WebSocket(" ++ args : Text) := by
    intro hmem
    rcases List.mem_append.1 hmem with h | h
    · exact absurd h (by decide)
    · exact hargs h
  have hparen : ∀ w, initGuard.pattern.Denotes w → (')' : CodePoint) ∈ w := by
    intro w hw
    obtain ⟨l, k, rfl, -, hk⟩ := initGuard_denotes hw
    obtain ⟨s, r, rfl, -⟩ := guardRight_denotes hk
    simp [Text.ofString]
  have hapart : initGuard.pattern.Apart a ("new WebSocket(" ++ args) := by
    intro u v _ hv _ hfront hw
    have hvclose : (')' : CodePoint) ∉ v := fun hmem => hclose (hfront.subset hmem)
    rcases List.prefix_or_prefix_of_prefix hfront (List.prefix_append _ args) with hshort | hlong
    · have hlast := initGuard_last hw
      rw [List.getLast?_append_of_ne_nil _ hv] at hlast
      exact absurd (hshort.subset (List.mem_of_getLast? hlast)) (by decide)
    · exact initGuard_end hvclose hw (hlong.subset (by decide))
  rw [places_append initGuard_edgeFree hapart,
    places_eq_zero initGuard_edgeFree (not_standsIn_of_mem hparen hclose), Nat.add_zero]

theorem guards_origin {origin : Text} (hquote : ('"' : CodePoint) ∉ origin) :
    initGuard.pattern.places (" \"" ++ origin ++ "\"") = 0 := by
  rw [places_append initGuard_edgeFree (apart_of_last (fun w => initGuard_last) (by decide) _),
    places_append initGuard_edgeFree (apart_of_head (fun w => initGuard_head) (by decide) _),
    places_eq_zero initGuard_edgeFree (not_standsIn_of_mem (fun w => initGuard_quote) hquote)]
  decide

theorem guards_tail {m : Match} {w : Text} (h : socket.pattern.Reads w m.held) (b : Text) :
    initGuard.pattern.places (")" ++ (m.named "tail" ++ b)) = initGuard.pattern.places b := by
  have hi : ('i' : CodePoint) ∉ (")" ++ m.named "tail" : Text) := by
    intro hmem
    rcases List.mem_append.1 hmem with hmem | hmem
    · exact absurd hmem (by decide)
    · exact Match.not_mem_named (c := 'i') h "tail" (by decide) hmem
  rw [← List.append_assoc, places_append initGuard_edgeFree (apart_of_head (fun w => initGuard_head) hi b),
    places_eq_zero initGuard_edgeFree (not_standsIn_of_head (fun w => initGuard_head) hi), Nat.zero_add]

theorem guards_openSocket {origin : Text} (hquote : ('"' : CodePoint) ∉ origin) {m : Match} {w : Text}
    (h : socket.pattern.Reads w m.held) (a b : Text) :
    initGuard.pattern.places (a ++ openSocket.build m origin ++ b) =
      initGuard.pattern.places a + initGuard.pattern.places b := by
  have hargs := Match.not_mem_named (c := ')') h "args" (by decide)
  have hpieces : ∀ x ∈ optionPieces, initGuard.pattern.places x = 0 := by decide
  rw [places_openSocket initGuard_foreign hpieces, guards_openSocket_left hargs, guards_origin hquote, guards_tail h,
    Nat.add_zero]

theorem guards_refuseChallenge (m : Match) (origin a b : Text) :
    initGuard.pattern.places (a ++ refuseChallenge.build m origin ++ b) =
      initGuard.pattern.places a + initGuard.pattern.places b := by
  apply places_refuseChallenge initGuard_foreign
  · exact apart_of_last (fun w => initGuard_last) (by decide) a
  · exact places_eq_zero initGuard_edgeFree (not_standsIn_of_head (fun w => initGuard_head) (by decide))
  · exact apart_of_opening (fun w => initGuard_opening) (by decide +kernel) b
  · exact places_eq_zero initGuard_edgeFree
      (not_standsIn_of_opening (fun w => initGuard_opening) (by decide) (by decide +kernel))

/-- What a step does to the number of guards: those over the match go, those over what is written come. -/
theorem Replaces.guards {r : Rule} (he : r.landmark.pattern.isEdgeFree = true) {origin before after : Text} {m : Match}
    (h : r.Replaces origin before m after) :
    initGuard.count after + guardsOver before m.start.index m.stop.index =
      initGuard.count before +
        guardsOver after m.start.index (m.start.index + (r.build m origin).length) := by
  obtain ⟨a, w, b, hm, rfl⟩ := h.split he
  have hold := initGuard_count_append a w b
  have hnew := initGuard_count_append a (r.build m origin) b
  rw [hm.start_index, hm.stop_index, hm.whole]
  omega

theorem Replaces.guards_of_places {r : Rule} (he : r.landmark.pattern.isEdgeFree = true) {origin before after : Text}
    {m : Match} (h : r.Replaces origin before m after)
    (hbuilt : ∀ a w b, r.landmark.pattern.Reads w m.held → initGuard.pattern.places (a ++ r.build m origin ++ b) =
      initGuard.pattern.places a + initGuard.pattern.places b) :
    initGuard.count after + guardsOver before m.start.index m.stop.index = initGuard.count before := by
  obtain ⟨a, w, b, hm, heq⟩ := h.split he
  have hstep := h.guards he
  rw [hm.start_index, heq, guardsOver_eq_zero (hbuilt a w b hm.reads)] at hstep
  rw [hm.start_index, heq]
  exact hstep

theorem Replaces.guards_reportSocketError {origin before after : Text} {m : Match}
    (h : reportSocketError.Replaces origin before m after) : initGuard.count after = initGuard.count before := by
  obtain ⟨a, w, b, hm, rfl⟩ := h.split rfl
  have hnew := places_reportSocketError initGuard_foreign (fun w => initGuard_quote) (fun w => initGuard_head)
    (fun w => initGuard_last) (by decide) (.inr rfl) hm.reads origin a b
  obtain ⟨x, y, z, rfl, hx, hsx, hy, hz, hiz⟩ := socketError_denotes hm.reads.denotes
  have hold := initGuard_foreign.places_handler (fun w => initGuard_quote) (fun w => initGuard_head)
    (fun w => initGuard_last) hx hsx hy hz hiz a b
  rw [hm.whole]
  simp only [Landmark.count, initGuard_discrete.count_eq_places, hnew, hold]

/-- The rules leave as many guards as there were exactly where the deferred call makes as many as the rules have taken
away: from the assignment, from the transport and from the challenge case. -/
theorem applyAll_guards_eq_iff {origin source result : Text} {counts : Table Nat} (hquote : ('"' : CodePoint) ∉ origin)
    (h : applyAll origin all source = .ok (result, counts)) :
    ∃ m₀ t₁ m₁ t₂ m₂ t₃ m₃, deferInit.Replaces origin source m₀ t₁ ∧ openSocket.Replaces origin t₁ m₁ t₂ ∧
      reportSocketError.Replaces origin t₂ m₂ t₃ ∧ refuseChallenge.Replaces origin t₃ m₃ result ∧
      (initGuard.count result = initGuard.count source ↔
        guardsOver source m₀.start.index m₀.stop.index + guardsOver t₁ m₁.start.index m₁.stop.index +
            guardsOver t₃ m₃.start.index m₃.stop.index =
          guardsOver t₁ m₀.start.index (m₀.start.index + (deferInit.build m₀ origin).length)) := by
  obtain ⟨m₀, t₁, m₁, t₂, m₂, t₃, m₃, h₀, h₁, h₂, h₃⟩ := applyAll_eq_ok h
  refine ⟨m₀, t₁, m₁, t₂, m₂, t₃, m₃, h₀, h₁, h₂, h₃, ?_⟩
  have hinit := h₀.guards rfl
  have hsocket := h₁.guards_of_places rfl fun a _ b hreads => guards_openSocket hquote hreads a b
  have herror := h₂.guards_reportSocketError
  have hchallenge := h₃.guards_of_places rfl fun a _ b _ => guards_refuseChallenge m₃ origin a b
  omega

def guardInside : Text :=
  "HBInit=function()\x7b" ++ "if(a.b)throw c.d(" ++ "\"Can't init twice\");" ++ "a.b=!0;return a\x7d;" ++
    ("new WebSocket(u);" ++ "e.g.onerror=" ++ "function()\x7bh.k(!0)\x7d;" ++ "case \"recaptcha\":" ++ "r(x)")

def guardInsideReplaced : Text :=
  "promiseResolve(" ++ "function()\x7b" ++ "if(a.b)throw c.d(" ++ "\"Can't init twice\"));" ++ "a.b=!0;return a\x7d;" ++
    ("new WebSocket(u, " ++ "\x7bheaders:\x7borigin: \"o\"\x7d" ++ ", agent: proxyAgent\x7d);" ++
    ("e.g.onerror=" ++ "function(err)\x7bh.k(!0);" ++ "debug && " ++ "console.error(err)\x7d;" ++
      "case \"recaptcha\":" ++ "console.log(new Error(" ++ "\"Invalid Token Provided!\"" ++ "))"))

theorem applyAll_guardInside :
    applyAll "o" all guardInside = .ok (guardInsideReplaced, all.map fun r => (r.name, 1)) := by
  decide +kernel

/-- The call that takes the place of the assignment ends inside the guard. -/
theorem guardInside_unbalanced :
    ∃ m₀ t₁ m₁ t₂ m₂ t₃ m₃, deferInit.Replaces "o" guardInside m₀ t₁ ∧ openSocket.Replaces "o" t₁ m₁ t₂ ∧
      reportSocketError.Replaces "o" t₂ m₂ t₃ ∧ refuseChallenge.Replaces "o" t₃ m₃ guardInsideReplaced ∧
      (initGuard.count guardInsideReplaced = initGuard.count guardInside ↔
        guardsOver guardInside m₀.start.index m₀.stop.index + guardsOver t₁ m₁.start.index m₁.stop.index +
            guardsOver t₃ m₃.start.index m₃.stop.index =
          guardsOver t₁ m₀.start.index (m₀.start.index + (deferInit.build m₀ "o").length)) :=
  applyAll_guards_eq_iff (by decide) applyAll_guardInside

/-- The guard is lost there. -/
theorem not_guards_kept : ¬ ∀ (origin source result : Text) (counts : Table Nat), ('"' : CodePoint) ∉ origin →
    applyAll origin all source = .ok (result, counts) → initGuard.count result = initGuard.count source := by
  intro h
  have hcount := h "o" guardInside _ _ (by decide) applyAll_guardInside
  exact absurd hcount (by decide +kernel)

end Rule
end Rehost
