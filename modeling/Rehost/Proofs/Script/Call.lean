import Rehost.Proofs.Pattern.Cut
import Rehost.Proofs.Script.Draft
import Rehost.Proofs.Script.Search

/-! Landmarks that end in a call: the construction of the transport and the challenge case. Behind their heads all that
counts is that the call hands something over and is closed. So what is written into a match lets no other one begin
farther left, unless a head runs into it. -/
namespace Rehost
open Pattern

namespace Pattern

def Closed (t : Text) : Prop := (')' : CodePoint) ∈ t ∧ t.head? ≠ some (')' : CodePoint)

theorem closed_iff {t : Text} : Closed t ↔ ∃ x r, t = x ++ ")" ++ r ∧ x ≠ [] ∧ (')' : CodePoint) ∉ x := by
  constructor
  · rintro ⟨hmem, hhead⟩
    obtain ⟨x, r, rfl, hx⟩ := List.eq_append_cons_of_mem hmem
    refine ⟨x, r, by simp [Text.ofString], ?_, hx⟩
    rintro rfl
    simp at hhead
  · rintro ⟨x, r, rfl, hne, hx⟩
    refine ⟨by simp [Text.ofString], fun hhead => ?_⟩
    rw [List.append_assoc, List.head?_append_of_ne_nil _ hne] at hhead
    exact hx (List.mem_of_head? hhead)

theorem Closed.append {x t : Text} (h : Closed t) (hx : ∀ c, x.head? = some c → c ≠ ')') : Closed (x ++ t) := by
  refine ⟨List.mem_append_right _ h.1, fun hhead => ?_⟩
  cases x with
  | nil => exact h.2 hhead
  | cons c x => exact hx c rfl (by simpa using hhead)

/-- Words of the pattern begin where a head opens a call. -/
def Calls (p head : Pattern) : Prop := ∀ t, p.opens t ↔ ∃ h r, t = h ++ r ∧ head.Denotes h ∧ Closed r

section Calls

variable {p head : Pattern} (hp : p.Calls head) (hlacks : head.Lacks ')')
include hp hlacks

theorem Calls.closed {t : Text} (h : p.opens t) : Closed t := by
  obtain ⟨o, r, rfl, ho, hr⟩ := (hp t).1 h
  refine hr.append fun c hc => ?_
  rintro rfl
  exact hlacks o ho (List.mem_of_head? hc)

theorem Calls.opens_swap {y x x' : Text} (hx' : p.opens x')
    (hcross : ∀ h r, x = h ++ r → h ≠ [] → ¬ head.Denotes (y ++ h)) (hopens : p.opens (y ++ x)) : p.opens (y ++ x') := by
  have hx' := hp.closed hlacks hx'
  obtain ⟨h, r, heq, hh, hr⟩ := (hp _).1 hopens
  rcases List.append_eq_append_iff.1 heq with ⟨h', rfl, rfl⟩ | ⟨y', rfl, rfl⟩
  · obtain rfl : h' = [] := by
      by_contra hne
      exact hcross h' r rfl hne hh
    exact (hp _).2 ⟨y, x', rfl, by simpa using hh, hx'⟩
  · refine (hp _).2 ⟨h, y' ++ x', by simp, hh, hx'.append fun c hc => ?_⟩
    rintro rfl
    refine hr.2 ?_
    rw [List.head?_append, hc]
    rfl

/-- With another text in the place of a match and of what stands behind it, no word begins farther left than the match,
unless its head reaches into that text. -/
theorem Calls.front_le {t a w b x u v : Text} {m : Match} (hm : p.Found t m a w b)
    (hcross : ∀ y h r, y ≠ [] → h ≠ [] → x = h ++ r → ¬ head.Denotes (y ++ h)) (heq : a ++ x = u ++ v)
    (hv : p.opens v) : a.length ≤ u.length := by
  by_contra hlt
  rw [Nat.not_le] at hlt
  obtain ⟨y, rfl⟩ := List.prefix_of_prefix_length_le ⟨v, heq.symm⟩ (List.prefix_append a _) hlt.le
  have hy : y ≠ [] := by
    rintro rfl
    simp at hlt
  obtain rfl : y ++ x = v := by simpa using heq
  exact hm.passed rfl hy
    (hp.opens_swap hlacks ⟨w, b, rfl, hm.reads.denotes⟩ (fun h r hx hne => hcross y h r hy hne hx) hv)

end Calls

end Pattern

namespace Landmark

def socketHead : List Pattern := [lit "new", blanks1, lit "WebSocket", blanks, lit "("]

theorem socketHead_denotes_iff {o : Text} :
    (inOrder socketHead).Denotes o ↔ ∃ s₁ s₂ : Text, o = "new" ++ s₁ ++ "WebSocket" ++ s₂ ++ "(" ∧
      s₁ ≠ [] ∧ (∀ c ∈ s₁, Text.isBlank c = true) ∧ ∀ c ∈ s₂, Text.isBlank c = true := by
  constructor
  · rintro ⟨_, _, rfl, rfl, s₁, _, rfl, ⟨hne, hs₁⟩, _, _, rfl, rfl, s₂, _, rfl, hs₂, rfl⟩
    exact ⟨s₁, s₂, by simp, hne, hs₁, hs₂⟩
  · rintro ⟨s₁, s₂, rfl, hne, hs₁, hs₂⟩
    exact ⟨"new", _, by simp, rfl, s₁, _, rfl, ⟨hne, hs₁⟩, "WebSocket", _, rfl, rfl, s₂, "(", rfl, hs₂, rfl⟩

theorem socketHead_first {y h : Text} (hw : (inOrder socketHead).Denotes (y ++ h)) (hy : y ≠ []) :
    ('n' : CodePoint) ∉ h := by
  obtain ⟨o, r, heq, rfl, hr⟩ := denotes_inOrder_cons.1 hw
  have hr : ('n' : CodePoint) ∉ r := lacks_of_mayHold (by decide) r hr
  cases y with
  | nil => contradiction
  | cons c y =>
    have hrest : y ++ h = "ew" ++ r := (List.cons.inj heq).2
    intro hmem
    have hmem : ('n' : CodePoint) ∈ ("ew" : Text) ++ r := hrest ▸ List.mem_append_right y hmem
    rcases List.mem_append.1 hmem with hmem | hmem
    · exact absurd hmem (by decide)
    · exact hr hmem

theorem socket_calls : socket.pattern.Calls (inOrder socketHead) := by
  have hsplit : socket.pattern = inOrder (socketHead ++ [group (some "args") (most1 (!·.is ')')), lit ")",
    group (some "tail") (seq blanks (Pattern.optional (lit ";")))]) := rfl
  intro t
  constructor
  · rintro ⟨_, r, rfl, hw⟩
    rw [hsplit, denotes_inOrder_append] at hw
    obtain ⟨h, _, rfl, hh, x, _, rfl, ⟨hne, hx⟩, e, s, rfl, rfl, -⟩ := hw
    exact ⟨h, x ++ ")" ++ (s ++ r), by simp, hh, closed_iff.2 ⟨x, s ++ r, rfl, hne, forall_not_closing.1 hx⟩⟩
  · rintro ⟨h, _, rfl, hh, hr⟩
    obtain ⟨x, r, rfl, hne, hx⟩ := closed_iff.1 hr
    have htail : (seq blanks (Pattern.optional (lit ";"))).Denotes [] :=
      ⟨[], [], rfl, fun _ h => absurd h (by simp), .inr rfl⟩
    have hend : (")" : Text) = ")" ++ ([] : Text) := by simp
    refine ⟨h ++ (x ++ ")"), r, by simp, ?_⟩
    rw [hsplit, denotes_inOrder_append]
    exact ⟨h, _, rfl, hh, x, ")", rfl, ⟨hne, forall_not_closing.2 hx⟩, ")", [], hend, rfl, htail⟩

theorem challenge_calls : challenge.pattern.Calls (inOrder challengeHead) := by
  intro t
  constructor
  · rintro ⟨w, r, rfl, hw⟩
    obtain ⟨h, x, rfl, hh, hne, hx⟩ := challenge_denotes_iff.1 hw
    exact ⟨h, x ++ ")" ++ r, by simp, hh, closed_iff.2 ⟨x, r, rfl, hne, hx⟩⟩
  · rintro ⟨h, _, rfl, hh, hr⟩
    obtain ⟨x, r, rfl, hne, hx⟩ := closed_iff.1 hr
    exact ⟨h ++ x ++ ")", r, by simp, challenge_denotes_iff.2 ⟨h, x, rfl, hh, hne, hx⟩⟩

end Landmark

theorem Wanted.fits_socket_iff {w b : Text} {g : Holdings} :
    Wanted.socket.Fits w b g ↔ ∃ o x s : Text, w = o ++ x ++ ")" ++ s ∧ (inOrder Landmark.socketHead).Denotes o ∧
      x ≠ [] ∧ (')' : CodePoint) ∉ x ∧ StatementEnd s b ∧ g = [(some ("args" : Text), x), (some ("tail" : Text), s)] := by
  have hhead : Landmark.socketHead = socket.left ++ exactly socket.token :: [blanks, Landmark.lit "("] := rfl
  constructor
  · rintro ⟨l, k, s, rfl, ⟨gl, gk, rfl, hl, hk⟩, hs⟩
    obtain rfl := hl.held_eq_nil rfl
    obtain ⟨s₂, k, rfl, hs₂, h₁⟩ := reads_most_cons hk
    obtain ⟨k, rfl, h₂⟩ := reads_exactly_cons h₁
    obtain ⟨x, k, _, _, rfl, rfl, ⟨⟨hne, hx⟩, rfl⟩, rfl, rfl⟩ := reads_group_cons h₂
    refine ⟨l ++ socket.token ++ (s₂ ++ "("), x, s, by simp, ?_, hne, Landmark.forall_not_closing.1 hx, hs, rfl⟩
    rw [hhead, denotes_around]
    exact ⟨l, s₂ ++ "(", rfl, hl.denotes, s₂, "(", rfl, hs₂, rfl⟩
  · rintro ⟨o, x, s, rfl, ho, hne, hx, hs, rfl⟩
    rw [hhead, denotes_around] at ho
    obtain ⟨l, _, rfl, hl, s₂, _, rfl, hs₂, rfl⟩ := ho
    obtain ⟨gl, hl⟩ := (denotes_iff_reads _ _).1 hl
    obtain rfl := hl.held_eq_nil rfl
    have hargs : (group (some "args") (most1 (!·.is ')'))).Reads x [(some ("args" : Text), x)] :=
      ⟨[], ⟨⟨hne, Landmark.forall_not_closing.2 hx⟩, rfl⟩, rfl⟩
    have hcore : (inOrder socket.core).Reads (s₂ ++ ("(" ++ (x ++ ")"))) [(some ("args" : Text), x)] :=
      ⟨s₂, _, [], _, rfl, rfl, ⟨hs₂, rfl⟩, "(", _, [], _, rfl, rfl, ⟨rfl, rfl⟩, x, ")", _, [], rfl, rfl, hargs, rfl, rfl⟩
    exact ⟨l, _, s, by simp, ⟨[], _, rfl, hl, hcore⟩, hs⟩

structure Construction (t front opening args behind : Text) : Prop where
  whole : t = front ++ opening ++ args ++ ")" ++ behind
  opens : ∃ s₁ s₂ : Text, opening = "new" ++ s₁ ++ "WebSocket" ++ s₂ ++ "(" ∧
    s₁ ≠ [] ∧ (∀ c ∈ s₁, Text.isBlank c = true) ∧ ∀ c ∈ s₂, Text.isBlank c = true
  given : args ≠ []
  closed : (')' : CodePoint) ∉ args

namespace Construction

variable {t front opening args behind : Text} (h : Construction t front opening args behind)
include h

theorem head_denotes : (inOrder Landmark.socketHead).Denotes opening := Landmark.socketHead_denotes_iff.2 h.opens

theorem opens_at : ∃ v, t = front ++ v ∧ Landmark.socket.pattern.opens v := by
  refine ⟨opening ++ (args ++ ")" ++ behind), by simp [h.whole], (Landmark.socket_calls _).2 ?_⟩
  exact ⟨opening, _, rfl, h.head_denotes, closed_iff.2 ⟨args, behind, rfl, h.given, h.closed⟩⟩

end Construction

namespace Rule

def addedArgument (origin : Text) : Text :=
  ", \x7bheaders:\x7borigin: \"" ++ origin ++ "\"\x7d, agent: proxyAgent\x7d"

theorem build_openSocket (m : Match) (origin : Text) :
    openSocket.build m origin =
      "new WebSocket(" ++ (m.named "args" ++ addedArgument origin) ++ ")" ++ m.named "tail" := by
  simp [openSocket, socketOptions, addedArgument, slots, Text.ofString]

/-- No construction begins farther left when the first one is opened anew and hands over something else: a head has the
character that it begins with nowhere else, so none runs into what is written. -/
theorem openSocket_first {t a w b : Text} {m : Match} (h : Landmark.socket.pattern.Found t m a w b) {x u v : Text}
    (heq : a ++ ("new WebSocket(" ++ x) = u ++ v) (hv : Landmark.socket.pattern.opens v) : a.length ≤ u.length := by
  refine Landmark.socket_calls.front_le (lacks_of_mayHold (by decide)) h (fun y o r hy hne hx ho => ?_) heq hv
  obtain ⟨c, o, rfl⟩ := List.exists_cons_of_ne_nil hne
  obtain rfl : ('n' : CodePoint) = c := by
    have := congrArg List.head? hx
    simpa [Text.ofString] using this
  exact Landmark.socketHead_first ho hy (by simp)

theorem count_openSocket {t a w b tail args : Text} {m : Match} (h : Landmark.socket.pattern.Found t m a w b)
    (htail : Wanted.StatementEnd tail b) (hgiven : args ≠ []) (hclosed : (')' : CodePoint) ∉ args) :
    Landmark.socket.count (a ++ ("new WebSocket(" ++ args ++ ")" ++ tail) ++ b) = Landmark.socket.count t := by
  have hopening : (inOrder Landmark.socketHead).Denotes ("new WebSocket(" : Text) :=
    Landmark.socketHead_denotes_iff.2 ⟨" ", [], by decide, by decide, by decide, by simp⟩
  have hfits := Wanted.fits_socket_iff.2 ⟨_, args, tail, rfl, hopening, hgiven, hclosed, htail, rfl⟩
  have hfirst : ∀ u v, a ++ ("new WebSocket(" ++ args ++ ")" ++ tail) ++ b = u ++ v →
      Landmark.socket.pattern.opens v → a.length ≤ u.length := by
    intro u v heq
    exact openSocket_first h (x := args ++ (")" ++ (tail ++ b))) (by simpa using heq)
  obtain ⟨m', -, hm', -⟩ := Wanted.found_of_fits (x := .socket) (by decide) rfl hfits hfirst
  have hfound' : Landmark.socket.pattern.Found _ m' a _ b := ⟨hm', rfl, hfirst⟩
  have hnew := hfound'.count_eq rfl (Wanted.nonempty .socket)
  have hold := h.count_eq rfl (Wanted.nonempty .socket)
  exact hnew.trans hold.symm

/-- The rule opens the first construction anew and tells it one thing more: everything else stays where it was, and as
long as the origin does not close the call there are as many constructions as before. -/
theorem openSocket_inserts {t : Text} {m : Match} (h : Landmark.socket.search? t = some m) (origin : Text) :
    ∃ opening args tail behind result,
      Construction t m.front opening args (tail ++ behind) ∧ Wanted.StatementEnd tail behind ∧
      (∀ front' opening' args' behind', Construction t front' opening' args' behind' →
        m.front.length ≤ front'.length) ∧
      openSocket.apply origin t = .ok (result, Landmark.socket.count t) ∧
      result = m.front ++ "new WebSocket(" ++ args ++ addedArgument origin ++ ")" ++ (tail ++ behind) ∧
      ((')' : CodePoint) ∉ origin → Landmark.socket.count result = Landmark.socket.count t) := by
  obtain ⟨a, w, b, hfound⟩ := found_of_search? rfl h
  obtain ⟨opening, args, tail, rfl, hopening, hgiven, hclosed, htail, hheld⟩ :=
    Wanted.fits_socket_iff.1 (Wanted.reading_of_matchedAt (x := .socket) hfound.toMatchedAt)
  have hargs : m.named "args" = args := by simp [Match.named, Match.named?_eq, hheld]
  have hne : (some ("args" : Text)) ≠ some ("tail" : Text) := by decide
  have hnamed : m.named "tail" = tail := by simp [Match.named, Match.named?_eq, hheld, hne]
  rw [hfound.front_eq]
  refine ⟨opening, args, tail, b, a ++ openSocket.build m origin ++ b, ?_, htail, ?_, ?_, ?_, fun ho => ?_⟩
  · exact ⟨by simp [hfound.whole], Landmark.socketHead_denotes_iff.1 hopening, hgiven, hclosed⟩
  · intro front' opening' args' behind' hother
    obtain ⟨v, hv, hopens⟩ := hother.opens_at
    exact hfound.first front' v hv hopens
  · rw [apply_of_search? h, hfound.splice_eq]
    rfl
  · simp [build_openSocket, hargs, hnamed]
  · rw [build_openSocket, hargs, hnamed]
    refine count_openSocket hfound htail (by simp [hgiven]) fun hmem => ?_
    have hadded : (')' : CodePoint) ∉ addedArgument origin := by
      simpa [addedArgument, Text.ofString, ho] using by decide
    exact (List.mem_append.1 hmem).elim hclosed hadded

def nestedTransports : Text := "a=new\t\nWebSocket (b(new WebSocket(c) ;new  WebSocket(d);"

theorem openSocket_inserts_nestedTransports : ∃ m opening args tail behind result,
    Landmark.socket.search? nestedTransports = some m ∧
      Construction nestedTransports m.front opening args (tail ++ behind) ∧
      openSocket.apply "o" nestedTransports = .ok (result, 2) ∧ Landmark.socket.count result = 2 := by
  obtain ⟨m, hm⟩ : ∃ m, Landmark.socket.search? nestedTransports = some m := ⟨_, rfl⟩
  obtain ⟨opening, args, tail, behind, result, hthere, -, -, happly, -, hcount⟩ := openSocket_inserts hm "o"
  have htwo : Landmark.socket.count nestedTransports = 2 := by decide +kernel
  exact ⟨m, opening, args, tail, behind, result, hm, hthere, htwo ▸ happly, (hcount (by decide)).trans htwo⟩

end Rule
end Rehost
