import Rehost.Proofs.Script.Replacement
import Rehost.Proofs.Text.Bracket

/-! What the rules do to the brackets of a script. The transport and the error handler keep them as they are. The
deferred call puts parentheses around a value that ends at a semicolon, wherever that stands, and the challenge case
takes the first closing parenthesis for its end; both keep the brackets paired only where what they cut off is. -/
namespace Rehost
open Pattern

namespace Pattern

/-- The brackets of every word, if the pattern leaves no choice of them. -/
def brackets? : Pattern → Option Text
  | exactly t => some t.brackets
  | seq p q => do return (← p.brackets?) ++ (← q.brackets?)
  | group _ p => p.brackets?
  | p => if Bracket.marks.all (fun c => !p.mayHold c) then some [] else none

theorem brackets_eq_nil_of_mayHold {p : Pattern} (hp : (Bracket.marks.all fun c => !p.mayHold c) = true) {w : Text}
    (hw : p.Denotes w) : w.brackets = [] := by
  apply Text.brackets_eq_nil
  intro c hc
  have hc := List.all_eq_true.1 hp c hc
  exact lacks_of_mayHold (by simpa using hc) w hw

theorem brackets_of_denotes {p : Pattern} {b w : Text} (hp : p.brackets? = some b) (hw : p.Denotes w) :
    w.brackets = b := by
  induction p generalizing b w with
  | nothing | one _ | most _ | most1 _ | fewest _ | wordEdge | either _ _ =>
    simp only [brackets?, Option.ite_none_right_eq_some, Option.some.injEq] at hp
    rw [← hp.2]
    exact brackets_eq_nil_of_mayHold hp.1 hw
  | exactly t =>
    obtain rfl : w = t := hw
    simpa [brackets?] using hp
  | seq p q ihp ihq =>
    obtain ⟨u, v, rfl, hu, hv⟩ := hw
    simp only [brackets?, Option.bind_eq_bind, Option.bind_eq_some_iff, Option.pure_def, Option.some.injEq] at hp
    obtain ⟨bp, hbp, bq, hbq, rfl⟩ := hp
    rw [Text.brackets_append, ihp hbp hu, ihq hbq hv]
  | group _ p ih => exact ih hp hw

end Pattern

namespace Rule
open Text

theorem brackets_named {p : Pattern} {m : Match} {w : Text} (hr : p.Reads w m.held) (name : Text)
    (h : (Bracket.marks.all fun c => !p.groupMayHold name c) = true) : (m.named name).brackets = [] := by
  apply Text.brackets_eq_nil
  intro c hc
  have hc := List.all_eq_true.1 h c hc
  exact Match.not_mem_named hr name (by simpa using hc)

theorem nested_socketOptions {origin : Text} (ho : ∀ c ∈ Bracket.marks, c ∉ origin) :
    (socketOptions origin).Nested := by
  have horigin := brackets_eq_nil ho
  have hbrackets : (socketOptions origin).brackets = "\x7b\x7b\x7d\x7d" := by
    have hfront : ("\x7bheaders:\x7borigin: \"" : Text).brackets = "\x7b\x7b" := by decide
    have hbehind : ("\"\x7d, agent: " : Text).brackets = "\x7d" := by decide
    have hproxy : slots.proxy.brackets = [] := by decide
    have hend : ("\x7d" : Text).brackets = "\x7d" := by decide
    simp only [socketOptions, brackets_append, horigin, hfront, hbehind, hproxy, hend]
    rfl
  rw [← nested_brackets, hbrackets]
  decide

/-! The rules. -/

variable {origin before after : Text} {m : Match}

theorem Replaces.nested_deferInit (h : deferInit.Replaces origin before m after) (hs : before.Nested) :
    ∃ l, loose (m.named "value") = some l ∧ (after.Nested ↔ l.Only .round) := by
  obtain ⟨a, w, b, hm, rfl⟩ := h.split rfl
  obtain ⟨u, v, rfl, hu, -, hv⟩ := Match.named_of_reads [Landmark.lit "HBInit", blanks, Landmark.lit "=", blanks] "value"
    (seq (one (!·.is '\n')) (fewest (!·.is '\n'))) [Landmark.lit ";"] hm.reads rfl rfl
  have hu : u.brackets = [] := brackets_of_denotes (by decide) hu
  have hv : v.brackets = [] := brackets_of_denotes (by decide) hv
  have hbefore : before = a ++ u ++ m.named "value" ++ (v ++ b) := by simp [hm.whole]
  rw [hbefore] at hs
  obtain ⟨l, hl, hiff⟩ := nested_wrap_iff .round hs
  refine ⟨l, hl, Iff.trans ?_ hiff⟩
  have hpair : Bracket.round.opening :: m.named "value" ++ [Bracket.round.closing] =
      ("(" : Text) ++ m.named "value" ++ (")" : Text) := rfl
  have hcall : (deferInit.build m origin).brackets =
      (u ++ (("(" : Text) ++ m.named "value" ++ (")" : Text)) ++ v).brackets := by
    have hresolve : slots.resolve.brackets = [] := by decide
    have hend : (");" : Text).brackets = (")" : Text).brackets := by decide
    simp [deferInit, hu, hv, hresolve, hend]
  rw [nested_congr_brackets hcall, hpair]
  simp

theorem Replaces.nested_openSocket (ho : ∀ c ∈ Bracket.marks, c ∉ origin)
    (h : openSocket.Replaces origin before m after) : after.Nested ↔ before.Nested := by
  obtain ⟨a, w, b, hm, rfl⟩ := h.split rfl
  have htail := brackets_named hm.reads "tail" (by decide)
  obtain ⟨u, v, rfl, hu, -, hv⟩ := Match.named_of_reads
    [Landmark.lit "new", blanks1, Landmark.lit "WebSocket", blanks, Landmark.lit "("] "args" (most1 (!·.is ')'))
    [Landmark.lit ")", group (some "tail") (seq blanks (optional (Landmark.lit ";")))] hm.reads rfl rfl
  have hu : u.brackets = "(" := brackets_of_denotes (by decide) hu
  have hv : v.brackets = ")" := brackets_of_denotes (by decide) hv
  have hsplit : a ++ openSocket.build m origin ++ b =
      (a ++ ("new WebSocket(" ++ m.named "args" ++ ", ")) ++ socketOptions origin ++ (")" ++ m.named "tail" ++ b) := by
    simp [openSocket]
  have hrest : ("new WebSocket(" ++ m.named "args" ++ ", " ++ (")" ++ m.named "tail") : Text).brackets =
      (u ++ m.named "args" ++ v).brackets := by
    have hfront : ("new WebSocket(" : Text).brackets = "(" := by decide
    have hcomma : (", " : Text).brackets = [] := by decide
    have hend : (")" : Text).brackets = ")" := by decide
    simp only [brackets_append, hu, hv, hfront, hcomma, hend, htail, List.append_nil]
  rw [hsplit, nested_insert_iff (nested_socketOptions ho), hm.whole, ← nested_congr_brackets hrest]
  simp

theorem Replaces.nested_reportSocketError (h : reportSocketError.Replaces origin before m after) :
    after.Nested ↔ before.Nested := by
  obtain ⟨a, w, b, hm, rfl⟩ := h.split rfl
  have hold : w.Nested := by
    rw [← nested_brackets, brackets_of_denotes (b := "()\x7b()\x7d") (by decide) hm.reads.denotes]
    decide
  have hnew : (reportSocketError.build m origin).Nested := by
    have hobj := brackets_named hm.reads "obj" (by decide)
    have hprop := brackets_named hm.reads "prop" (by decide)
    have hmethodObj := brackets_named hm.reads "method_obj" (by decide)
    have hmethod := brackets_named hm.reads "method" (by decide)
    have htruthy := brackets_named hm.reads "truthy" (by decide)
    rw [← nested_brackets]
    simp only [reportSocketError, brackets_append, hobj, hprop, hmethodObj, hmethod, htruthy, List.nil_append,
      List.append_nil]
    decide
  rw [hm.whole, nested_insert_iff hnew, nested_insert_iff hold]

theorem Replaces.nested_refuseChallenge (h : refuseChallenge.Replaces origin before m after) (hs : before.Nested) :
    after.Nested ↔ m.text.Nested := by
  obtain ⟨a, w, b, hm, rfl⟩ := h.split rfl
  obtain ⟨u, v, heq, hu, -, hv⟩ := Landmark.challenge_denotes_iff.1 hm.reads.denotes
  have hu : u.brackets = "(" := brackets_of_denotes (by decide) hu
  rw [hm.text_eq]
  rw [hm.whole] at hs
  have hnew : (refuseChallenge.build m origin).Nested := by
    rw [build_refuseChallenge]
    decide
  obtain ⟨stack, stack', -, hscan, -⟩ := nested_split hs
  have hw : w.brackets = Text.brackets (Bracket.round.opening :: v ++ [Bracket.round.closing]) := by
    have hpair : Bracket.round.opening :: v ++ [Bracket.round.closing] = ("(" : Text) ++ v ++ (")" : Text) := rfl
    have hopen : ("(" : Text).brackets = "(" := by decide
    simp only [heq, hpair, brackets_append, hu, hopen]
  rw [← scan_brackets, hw, scan_brackets] at hscan
  obtain ⟨opened, hloose⟩ := loose_wrap hv hscan
  rw [← loose_brackets, ← hw, loose_brackets] at hloose
  exact nested_exchange_iff hs hnew hloose

/-- In a well bracketed script the deferred call is well placed exactly where only parentheses lack their partners in
the value that was assigned, the transport and the error handler keep the brackets paired, and the challenge case does
so exactly where what it replaces is well bracketed. -/
theorem applyAll_nested {origin source result : Text} {counts : Table Nat} (ho : ∀ c ∈ Bracket.marks, c ∉ origin)
    (hs : source.Nested) (h : applyAll origin all source = .ok (result, counts)) :
    ∃ m₀ t₁ m₁ t₂ m₂ t₃ m₃, deferInit.Replaces origin source m₀ t₁ ∧ openSocket.Replaces origin t₁ m₁ t₂ ∧
      reportSocketError.Replaces origin t₂ m₂ t₃ ∧ refuseChallenge.Replaces origin t₃ m₃ result ∧
      (∃ l, loose (m₀.named "value") = some l ∧ (t₁.Nested ↔ l.Only .round)) ∧ (t₂.Nested ↔ t₁.Nested) ∧
      (t₃.Nested ↔ t₂.Nested) ∧ (t₃.Nested → (result.Nested ↔ m₃.text.Nested)) := by
  obtain ⟨m₀, t₁, m₁, t₂, m₂, t₃, m₃, h₀, h₁, h₂, h₃⟩ := applyAll_eq_ok h
  exact ⟨m₀, t₁, m₁, t₂, m₂, t₃, m₃, h₀, h₁, h₂, h₃, h₀.nested_deferInit hs, h₁.nested_openSocket ho,
    h₂.nested_reportSocketError, h₃.nested_refuseChallenge⟩

def twoStatements : Text :=
  "HBInit=function(a)\x7b" ++ "b(a);return new Ob(a)\x7d;" ++ "new WebSocket(u);" ++
    ("e.g.onerror=" ++ "function()\x7bh.k(!0)\x7d;" ++ "case \"recaptcha\":" ++ "r(x)")

/-- The call is closed behind the first one, inside the function. -/
def twoStatementsReplaced : Text :=
  "promiseResolve(" ++ "function(a)\x7b" ++ "b(a));" ++ "return new Ob(a)\x7d;" ++
    ("new WebSocket(u, " ++ "\x7bheaders:\x7borigin: \"o\"\x7d" ++ ", agent: proxyAgent\x7d);" ++
    ("e.g.onerror=" ++ "function(err)\x7bh.k(!0);" ++ "debug && " ++ "console.error(err)\x7d;" ++
      "case \"recaptcha\":" ++ "console.log(new Error(" ++ "\"Invalid Token Provided!\"" ++ "))"))

theorem applyAll_twoStatements :
    applyAll "o" all twoStatements = .ok (twoStatementsReplaced, all.map fun r => (r.name, 1)) := by
  decide +kernel

theorem nested_twoStatements : twoStatements.Nested := by decide +kernel

theorem twoStatements_cut :
    ∃ m₀ t₁ m₁ t₂ m₂ t₃ m₃, deferInit.Replaces "o" twoStatements m₀ t₁ ∧ openSocket.Replaces "o" t₁ m₁ t₂ ∧
      reportSocketError.Replaces "o" t₂ m₂ t₃ ∧ refuseChallenge.Replaces "o" t₃ m₃ twoStatementsReplaced ∧
      (∃ l, loose (m₀.named "value") = some l ∧ (t₁.Nested ↔ l.Only .round)) ∧ (t₂.Nested ↔ t₁.Nested) ∧
      (t₃.Nested ↔ t₂.Nested) ∧ (t₃.Nested → (twoStatementsReplaced.Nested ↔ m₃.text.Nested)) :=
  applyAll_nested (by decide) nested_twoStatements applyAll_twoStatements

/-- The brackets are no longer paired there. -/
theorem not_always_nested : ¬ ∀ (origin source result : Text) (counts : Table Nat),
    (∀ c ∈ Bracket.marks, c ∉ origin) → source.Nested → applyAll origin all source = .ok (result, counts) →
      result.Nested := by
  intro h
  have hresult := h "o" twoStatements _ _ (by decide) nested_twoStatements applyAll_twoStatements
  exact absurd hresult (by decide +kernel)

end Rule
end Rehost
