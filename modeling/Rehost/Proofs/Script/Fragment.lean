import Rehost.Proofs.Pipeline
import Rehost.Proofs.Script.Assignment
import Rehost.Proofs.Script.Occurrence
import Rehost.Proofs.Script.Options

/-! What of the rewritten fragments is left in a rehosted script. A later rule may replace a stretch that holds what an
earlier one has written, but only in three ways: whatever the deferred call hands over may be matched again, the
options of the transport may stand in what a challenge case hands over, and nothing else is ever overlapped or split. -/
namespace Rehost
open Pattern

/-- A run that finds every landmark: the matches, and the text that each rule leaves. -/
structure Rewriting (origin stripped : Text) where
  init : Match
  deferred : Text
  socket : Match
  opened : Text
  error : Match
  reported : Text
  challenge : Match
  refused : Text
  guard : Match
  lookup : Match
  defers : Rule.deferInit.Replaces origin stripped init deferred
  opens : Rule.openSocket.Replaces origin deferred socket opened
  reports : Rule.reportSocketError.Replaces origin opened error reported
  refuses : Rule.refuseChallenge.Replaces origin reported challenge refused
  guarded : Landmark.initGuard.search? refused = some guard
  looksUp : Landmark.lookup.search? refused = some lookup

def Rewriting.body {origin stripped : Text} (r : Rewriting origin stripped) : Text :=
  r.guard.splice (r.guard.text ++ Capability.statements (r.lookup.named "name"))

theorem inject_eq_ok {t body : Text} (h : Capability.inject t = .ok body) :
    ∃ guard lookup, Landmark.initGuard.search? t = some guard ∧ Landmark.lookup.search? t = some lookup ∧
      body = guard.splice (guard.text ++ Capability.statements (lookup.named "name")) := by
  cases hguard : Landmark.initGuard.search? t with
  | none => simp [Capability.inject, Landmark.require, hguard, bind, Except.bind] at h
  | some guard =>
    cases hlookup : Landmark.lookup.search? t with
    | none => simp [Capability.inject, Landmark.require, hguard, hlookup, bind, Except.bind] at h
    | some lookup =>
      simp only [Capability.inject, Landmark.require, hguard, hlookup, bind, Except.bind, pure, Except.pure,
        Except.ok.injEq] at h
      exact ⟨guard, lookup, rfl, rfl, h.symm⟩

theorem rewriting_of_ok {origin stripped body : Text} (h : Pipeline.rewritten origin stripped = .ok body) :
    ∃ r : Rewriting origin stripped, r.body = body := by
  cases hrun : Rule.applyAll origin Rule.all stripped with
  | error a => simp [Pipeline.rewritten_of_error hrun] at h
  | ok result =>
    obtain ⟨t, counts⟩ := result
    have hinject : Capability.inject t = .ok body := (Pipeline.rewritten_of_ok hrun).symm.trans h
    obtain ⟨m₀, t₁, m₁, t₂, m₂, t₃, m₃, h₀, h₁, h₂, h₃⟩ := Rule.applyAll_eq_ok hrun
    obtain ⟨guard, lookup, hguard, hlookup, hbody⟩ := inject_eq_ok hinject
    exact ⟨⟨m₀, t₁, m₁, t₂, m₂, t₃, m₃, t, guard, lookup, h₀, h₁, h₂, h₃, hguard, hlookup⟩, hbody.symm⟩

/-! The words that could overlap a fragment. -/

theorem Landmark.roomInit_value {m : Match} {a w b : Text} (h : roomInit.pattern.MatchedAt m a w b) :
    ∃ c v, m.named "value" = c :: v ∧ (';' : CodePoint) ∉ v := by
  obtain ⟨tail, hstands⟩ := Assignment.StandsAt.of_matchedAt h
  exact ((Assignment.matches_iff hstands _ b).1 ⟨m, w, rfl, h, rfl⟩).value_eq

/-! What the borders of a fragment keep off. -/

namespace Rule

def handlerTail : Text := slots.debug ++ " && console.error(err)\x7d;"

theorem handlerTail_suffix (m : Match) (origin : Text) :
    ∃ x, reportSocketError.build m origin = x ++ Text.mark ')' ++ ";" ++ handlerTail := by
  refine ⟨m.named "obj" ++ "." ++ m.named "prop" ++ ".onerror=function(err)\x7b" ++ m.named "method_obj" ++ "." ++
    m.named "method" ++ "(" ++ m.named "truthy", ?_⟩
  simp [reportSocketError, handlerTail, Text.ofString]

theorem challenge_avoids_handlerTail (a b : Text) :
    Landmark.challenge.pattern.Avoids (a ++ Text.mark ')' ++ ";") handlerTail b := by
  have hbar : ∀ u v, (')' : CodePoint) ∈ u → v ≠ [] → ¬ Landmark.challenge.pattern.Denotes (u ++ v) := by
    intro u v hu hv hw
    obtain ⟨x, heq, -, hx⟩ := Landmark.challenge_denotes hw
    have := congrArg List.dropLast heq
    rw [List.dropLast_append_of_ne_nil hv, show (")" : Text) = [(')' : CodePoint)] from by decide,
      List.dropLast_concat] at this
    exact hx (by simp [← this, hu])
  have hsplit : a ++ Text.mark ')' ++ ";" ++ handlerTail =
      (a ++ Text.mark ')' ++ (";debug && console.error(err" : Text)) ++ [(')' : CodePoint)] ++ ("\x7d;" : Text) := by
    simp [handlerTail, slots, Text.ofString]
  apply avoids_of_apart
  · exact apart_of_bar hbar (apart_of_head (fun w => Landmark.challenge_head) (by decide) _) a
  · rw [hsplit]
    exact apart_of_bar hbar (apart_of_head (fun w => Landmark.challenge_head) (by decide) _) _
  · refine not_standsIn_of_mem (e := '"') (fun w hw => ?_) (by decide)
    obtain ⟨x, rfl, hquote, -⟩ := Landmark.challenge_denotes hw
    simp [hquote]

theorem token_not_infix_options {origin : Text} (ho : CleanOrigin origin) (x : Wanted) :
    ¬ x.token <:+: socketOptions origin := by
  intro h
  have hpieces : ∀ y ∈ optionPieces, (exactly x.token).places y = 0 := by cases x <;> decide
  have hzero := places_socketOptions x.foreign_token hpieces origin []
  rw [show (exactly x.token).places (" \"" ++ origin ++ "\"") = 0 from occurrences_origin (ho.clean x)] at hzero
  have hpos : 0 < (exactly x.token).places (" " ++ socketOptions origin ++ ([] : Text)) := by
    refine places_pos rfl x.token_nonempty ?_
    obtain ⟨a, b, heq⟩ := h
    exact ⟨Text.mark ' ' ++ a, x.token, b, by simp [← heq, Text.ofString], rfl⟩
  rw [hzero] at hpos
  simp [places] at hpos

theorem socketError_not_in_options {origin : Text} (ho : CleanOrigin origin) :
    ¬ Landmark.socketError.pattern.standsIn (socketOptions origin) := by
  rintro ⟨c, w, d, heq, hw⟩
  refine token_not_infix_options ho .socketError ?_
  rw [heq]
  exact (Wanted.token_infix (x := .socketError) hw).trans ⟨c, d, rfl⟩

end Rule

/-! What is put in behind a guard. -/

def Unsplit (x : Text) : Prop :=
  ∀ a w y z, x = y ++ z → y ≠ [] → z ≠ [] → Landmark.initGuard.pattern.Denotes w → ¬ y <:+ a ++ w

theorem getLast?_of_guard {a w y : Text} (hw : Landmark.initGuard.pattern.Denotes w) (hy : y ≠ [])
    (h : y <:+ a ++ w) : y.getLast? = some (';' : CodePoint) := by
  obtain ⟨b, hb⟩ := h
  have hne : w ≠ [] := by
    rintro rfl
    exact Landmark.initGuard_nonempty hw
  have hlast := congrArg List.getLast? hb
  rwa [List.getLast?_append_of_ne_nil _ hy, List.getLast?_append_of_ne_nil _ hne, Landmark.initGuard_last hw] at hlast

theorem unsplit_of_semicolon {x : Text} (hx : (';' : CodePoint) ∉ x.dropLast) : Unsplit x := by
  rintro a w y z rfl hy hz hw hsuffix
  rw [List.dropLast_append_of_ne_nil hz] at hx
  exact hx (List.mem_append_left _ (List.mem_of_getLast? (getLast?_of_guard hw hy hsuffix)))

/-- A guard has no brace and its message is not among the options. -/
theorem unsplit_options {origin : Text} (ho : CleanOrigin origin) : Unsplit (Rule.socketOptions origin) := by
  intro a w y z heq hy _ hw hsuffix
  obtain ⟨c, y, rfl⟩ := List.exists_cons_of_ne_nil hy
  obtain rfl : c = '\x7b' := by
    have := congrArg List.head? heq
    simpa [Rule.socketOptions, Text.ofString, eq_comm] using this
  rcases Nat.lt_or_ge w.length (('\x7b' : CodePoint) :: y).length with hlong | hshort
  · have hwy : w <:+ ('\x7b' : CodePoint) :: y :=
      List.suffix_of_suffix_length_le (List.suffix_append a w) hsuffix hlong.le
    refine Rule.token_not_infix_options ho .initGuard ?_
    rw [heq]
    exact ((Wanted.token_infix (x := .initGuard) hw).trans hwy.isInfix).trans ⟨[], z, rfl⟩
  · have hyw : ('\x7b' : CodePoint) :: y <:+ w :=
      List.suffix_of_suffix_length_le hsuffix (List.suffix_append a w) hshort
    have hlacks : Landmark.initGuard.pattern.Lacks '\x7b' := lacks_of_mayHold (by decide)
    exact hlacks w hw (hyw.subset (by simp))

/-- A deferred call has a semicolon inside only as the first character of its value, and no guard ends with that and
the parenthesis. -/
theorem unsplit_call {c : CodePoint} {v : Text} (hv : (';' : CodePoint) ∉ v) :
    Unsplit ("promiseResolve(" ++ (c :: v) ++ ");") := by
  intro a w y z heq hy hz hw hsuffix
  obtain ⟨y, rfl⟩ := List.getLast?_eq_some_iff.1 (getLast?_of_guard hw hy hsuffix)
  obtain ⟨z, e, rfl⟩ := List.eq_nil_or_concat z |>.resolve_left hz
  have hinner : ("promiseResolve(" : Text) ++ (c :: (v ++ ")")) = y ++ (';' : CodePoint) :: z := by
    have hconcat : ("promiseResolve(" : Text) ++ (c :: (v ++ ")")) ++ Text.mark ';' =
        y ++ (';' : CodePoint) :: z ++ [e] := by
      simpa [Text.ofString] using heq
    exact (List.append_inj' hconcat rfl).1
  have hname : (';' : CodePoint) ∉ ("promiseResolve(" : Text) := by decide
  have hrest : (';' : CodePoint) ∉ v ++ (")" : Text) := by simpa [hv] using by decide
  have hy : y = ("promiseResolve(" : Text) := by
    rcases List.append_eq_append_iff.1 hinner with ⟨x, rfl, hx⟩ | ⟨x, hx, hx'⟩
    · cases x with
      | nil => simp
      | cons d x =>
        have := (List.cons.inj hx).2
        exact absurd (by simp [this]) hrest
    · cases x with
      | nil => simpa using hx.symm
      | cons d x =>
        obtain rfl := (List.cons.inj hx').1
        exact absurd (by simp [hx]) hname
  have hlong : 2 ≤ w.length := (by decide : 2 ≤ Wanted.initGuard.token.length).trans
    (Wanted.token_infix (x := .initGuard) hw).length_le
  have hopen : ("(;" : Text) <:+ a ++ w := by
    refine List.IsSuffix.trans ?_ hsuffix
    rw [hy]
    exact ⟨"promiseResolve", by decide⟩
  obtain ⟨u, rfl⟩ := List.suffix_of_suffix_length_le hopen (List.suffix_append a w) hlong
  exact Landmark.initGuard_end (by decide) hw (by decide)

/-! What is left of the fragments. -/

namespace Rewriting

variable {origin stripped : Text} (r : Rewriting origin stripped)

theorem statements_infix : Capability.statements (r.lookup.named "name") <:+: r.body := by
  obtain ⟨a, w, b, hm⟩ := found_of_search? Landmark.initGuard_edgeFree r.guarded
  rw [body, hm.splice_eq]
  exact ⟨a ++ r.guard.text, b, by simp⟩

theorem infix_body {x : Text} {i : Nat} (hx : x.StandsAt i r.refused) (hs : Unsplit x) : x <:+: r.body := by
  obtain ⟨a, w, b, hm⟩ := found_of_search? Landmark.initGuard_edgeFree r.guarded
  rw [body, hm.splice_eq, hm.text_eq]
  rw [hm.whole] at hx
  exact hx.isInfix_of_insert (fun y z hxyz hy hz => hs a w y z hxyz hy hz hm.reads.denotes) _

theorem challengeArm_infix : Rule.challengeArm <:+: r.body := by
  obtain ⟨a, w, b, hm, heq⟩ := r.refuses.split rfl
  have hstands : Rule.challengeArm.StandsAt a.length r.refused := ⟨a, b, heq, rfl⟩
  exact r.infix_body hstands (unsplit_of_semicolon (by decide))

theorem handlerTail_infix : Rule.handlerTail <:+: r.body := by
  obtain ⟨a, w, b, hm, heq⟩ := r.reports.split rfl
  obtain ⟨x, hx⟩ := Rule.handlerTail_suffix r.error origin
  have hwhole : r.reported = (a ++ x ++ Text.mark ')' ++ ";") ++ Rule.handlerTail ++ b := by
    rw [heq, hx]
    simp
  have hstands := r.refuses.standsAt rfl (by decide) ⟨_, b, hwhole, rfl⟩
    (r.refuses.overlaps_eq_false rfl hwhole (Rule.challenge_avoids_handlerTail (a ++ x) b))
  exact r.infix_body hstands (unsplit_of_semicolon (by decide))

def OptionsKept : Prop :=
  let i := r.socket.start.index + ("new WebSocket(" ++ r.socket.named "args" ++ ", " : Text).length
  let j := r.error.moved (Rule.reportSocketError.build r.error origin) i
  r.challenge.overlaps j (j + (Rule.socketOptions origin).length) = false

theorem options_infix (ho : CleanOrigin origin) (h : r.OptionsKept) : Rule.socketOptions origin <:+: r.body := by
  have hne : Rule.socketOptions origin ≠ [] := by simp [Rule.socketOptions, Text.ofString]
  obtain ⟨a, w, b, hm, heq⟩ := r.opens.split rfl
  have hwhole : r.opened = (a ++ ("new WebSocket(" ++ r.socket.named "args" : Text) ++ Text.mark ',' ++ " ") ++
      Rule.socketOptions origin ++ (")" ++ r.socket.named "tail" ++ b) := by
    rw [heq]
    simp [Rule.openSocket, Text.ofString]
  have hplace : (a ++ ("new WebSocket(" ++ r.socket.named "args" : Text) ++ Text.mark ',' ++ " ").length =
      r.socket.start.index + ("new WebSocket(" ++ r.socket.named "args" ++ ", " : Text).length := by
    simp [hm.start_index, Text.ofString]
  have hfree := r.reports.overlaps_eq_false rfl hwhole
    (Rule.socketError_avoids_options (Rule.socketError_not_in_options ho) _ _)
  have hstands := r.reports.standsAt rfl hne ⟨_, _, hwhole, rfl⟩ hfree
  rw [hplace] at hstands
  exact r.infix_body (r.refuses.standsAt rfl hne hstands h) (unsplit_options ho)

def call : Text := slots.resolve ++ "(" ++ r.init.named "value" ++ ");"

def CallKept : Prop :=
  let i := r.init.start.index
  let j := r.socket.moved (Rule.openSocket.build r.socket origin) i
  let k := r.error.moved (Rule.reportSocketError.build r.error origin) j
  r.socket.overlaps i (i + r.call.length) = false ∧ r.error.overlaps j (j + r.call.length) = false ∧
    r.challenge.overlaps k (k + r.call.length) = false

theorem call_infix (h : r.CallKept) : r.call <:+: r.body := by
  obtain ⟨hsocket, herror, hchallenge⟩ := h
  have hne : r.call ≠ [] := by simp [call, slots, Text.ofString]
  obtain ⟨a, w, b, hm, heq⟩ := r.defers.split rfl
  have hstands : r.call.StandsAt r.init.start.index r.deferred := ⟨a, b, heq, hm.start_index.symm⟩
  have hopened := r.opens.standsAt rfl hne hstands hsocket
  have hreported := r.reports.standsAt rfl hne hopened herror
  refine r.infix_body (r.refuses.standsAt rfl hne hreported hchallenge) ?_
  obtain ⟨c, v, hvalue, hv⟩ := Landmark.roomInit_value hm.toMatchedAt
  rw [call, hvalue]
  exact unsplit_call hv

end Rewriting

namespace Pipeline

/-- A rehosted script has the handler's tail, the challenge case and the statements of the capabilities; it has the
options and the deferred call unless a later match overlaps them. -/
theorem rehost_fragments {source origin output hash : Text} (ho : CleanOrigin origin)
    (h : rehost source origin = .ok (output, hash)) :
    ∃ r : Rewriting origin (Browser.strip source), output = Envelope.header ++ r.body ++ Envelope.footer ∧
      Rule.handlerTail <:+: r.body ∧ Rule.challengeArm <:+: r.body ∧
      Capability.statements (r.lookup.named "name") <:+: r.body ∧
      (r.OptionsKept → Rule.socketOptions origin <:+: r.body) ∧ (r.CallKept → r.call <:+: r.body) := by
  rw [rehost_eq ho.given] at h
  cases hrun : rewritten origin (Browser.strip source) with
  | error a => simp [hrun] at h
  | ok body =>
    obtain ⟨r, rfl⟩ := rewriting_of_ok hrun
    simp only [hrun, Except.ok.injEq, Prod.mk.injEq] at h
    exact ⟨r, h.1.symm, r.handlerTail_infix, r.challengeArm_infix, r.statements_infix, r.options_infix ho, r.call_infix⟩

/-- A transport that a challenge case hands over loses its options. -/
example : (rewritten "o" ("HBInit=v;" ++ "e.g.onerror=" ++ "function()\x7bh.k(!0)\x7d;" ++
    ("case \"recaptcha\":" ++ "r(new WebSocket(u))" ++ ("if(a.b)throw c.d(" ++ "\"Can't init twice\");" ++ "a.b=!0;" ++
      "w(\"noPlayer\",!1)")))).toOption.map (fun body => decide (Rule.socketOptions "o" <:+: body)) = some false := by
  decide +kernel

def nestedScript : Text :=
  "if(a.b)throw c.d(" ++ "\"Can't init twice\");" ++ "a.b=!0;" ++ "w(\"noPlayer\",!1);" ++
    ("e.g=new WebSocket(" ++ "x=>\x7bHBInit=v;return u\x7d);" ++
    ("e.g.onerror=" ++ "function()\x7bh.k(!0)\x7d;" ++ "case \"recaptcha\":" ++ "r(x)"))

/-- What it becomes: the arguments of the transport end at the parenthesis that closes the deferred call. -/
def nestedRewritten : Text :=
  "if(a.b)throw c.d(" ++ "\"Can't init twice\");" ++ "a.b=!0;" ++
    ("proxyAgent=" ++ "w(\"proxy\",null)?" ++ "new HttpsProxyAgent(" ++ "url.parse(" ++ "w(\"proxy\",null))" ++
      "):null;debug=" ++ "w(\"debug\",null)==true;" ++
    ("w(\"noPlayer\",!1);" ++ "e.g=new WebSocket(" ++ "x=>\x7bpromiseResolve(v, " ++
      "\x7bheaders:\x7borigin: \"o\"\x7d" ++ ", agent: proxyAgent\x7d);" ++ "return u\x7d);" ++
    ("e.g.onerror=" ++ "function(err)\x7bh.k(!0);" ++ "debug && " ++ "console.error(err)\x7d;" ++
      "case \"recaptcha\":" ++ "console.log(new Error(" ++ "\"Invalid Token Provided!\"" ++ "))")))

theorem rehost_nestedScript :
    rehost nestedScript "o" = .ok (Envelope.header ++ nestedRewritten ++ Envelope.footer, "unknown") := by
  have hstrip : Browser.strip nestedScript = nestedScript := by decide +kernel
  have hrun : rewritten "o" nestedScript = .ok nestedRewritten := by decide +kernel
  have hhash : BuildHash.extract nestedScript = "unknown" := by decide +kernel
  rw [rehost_eq (by decide), hstrip, hrun, hhash]

theorem nestedScript_fragments :
    ∃ r : Rewriting "o" (Browser.strip nestedScript),
      Envelope.header ++ nestedRewritten ++ Envelope.footer = Envelope.header ++ r.body ++ Envelope.footer ∧
      Rule.handlerTail <:+: r.body ∧ Rule.challengeArm <:+: r.body ∧
      Capability.statements (r.lookup.named "name") <:+: r.body ∧
      (r.OptionsKept → Rule.socketOptions "o" <:+: r.body) ∧ (r.CallKept → r.call <:+: r.body) :=
  rehost_fragments ⟨by decide, fun x => by cases x <;> decide⟩ rehost_nestedScript

/-- The deferred call is lost there. -/
theorem not_all_fragments_kept :
    ¬ ∀ source origin output hash : Text, CleanOrigin origin → (')' : CodePoint) ∉ origin →
      rehost source origin = .ok (output, hash) →
      ∃ init name body, Landmark.roomInit.search? (Browser.strip source) = some init ∧
        output = Envelope.header ++ body ++ Envelope.footer ∧
        (slots.resolve ++ "(" ++ init.named "value" ++ ");" : Text) <:+: body ∧ Rule.socketOptions origin <:+: body ∧
        Rule.handlerTail <:+: body ∧ Rule.challengeArm <:+: body ∧ Capability.statements name <:+: body := by
  intro h
  have horigin : CleanOrigin "o" := ⟨by decide, fun x => by cases x <;> decide⟩
  obtain ⟨init, name, body, hinit, houtput, hcall, -⟩ := h _ _ _ _ horigin (by decide) rehost_nestedScript
  obtain rfl : nestedRewritten = body := List.append_cancel_left (List.append_cancel_right houtput)
  have hvalue : init.named "value" = "v" := by
    have hnamed : (Landmark.roomInit.search? (Browser.strip nestedScript)).map (·.named "value") = some "v" := by
      decide +kernel
    rw [hinit] at hnamed
    exact Option.some.inj hnamed
  rw [hvalue] at hcall
  exact absurd hcall (by decide +kernel)

end Pipeline
end Rehost
