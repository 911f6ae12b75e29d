import DjangoMojo.Fetch.SafeFetch

/-! # The fence around outbound fetches

Every request of a run goes to a host that was cleared right before it, the
number of requests is bounded, credentials stay with one origin, and the call
returns a result or an error. Only the last of these can fail: decoding the
body may raise what the call does not catch.
-/

namespace DjangoMojo.Fetch

open Foundation

def Event.request? : Event → Option String
  | .judged .. => none
  | .requested url _ => some url

def requests (events : List Event) : List String := events.filterMap Event.request?

def bodyBytes : List (Except Failure (List UInt8)) → List UInt8
  | [] | .error _ :: _ => []
  | .ok chunk :: rest => chunk ++ bodyBytes rest

section

variable (parsers : UrlParsers) (net : Net) (call : Call)

def CarriesCredential (headers : Headers) : Prop :=
  ∃ entry ∈ headers, Call.isCredential parsers entry.1 = true

/-- What the fence promises of the judgements and requests of a run. -/
structure StaysInside (events : List Event) : Prop where
  few : (requests events).length ≤ call.maxRedirects + 1
  scheme : ∀ before url headers after, events = before ++ .requested url headers :: after →
    ∃ scheme ∈ call.schemes.toList, parsers.scheme url = some scheme
  cleared : ∀ before url headers after, events = before ++ .requested url headers :: after →
    ∃ hostname, transportHost parsers url = some hostname ∧
      (before = [] ∧ url = call.url ∧ hostname ∈ call.allowedHosts parsers ∨
        ∃ earlier evidence, before = earlier ++ [.judged hostname evidence] ∧
          evidence.Clears hostname)
  credentials : ∀ before url headers after, events = before ++ .requested url headers :: after →
    CarriesCredential parsers headers →
    ∀ other ∈ requests before, origin parsers other = origin parsers url

structure EndsWell (outcome : Outcome) (events : List Event) : Prop where
  one : ∃ result error, outcome = .returned result error ∧ result.isSome ≠ error.isSome
  content : ∀ result error, outcome = .returned (some result) error →
    ∃ hop headers resp, net.get hop result.url headers = .ok resp ∧
      events.getLast? = some (.requested result.url headers) ∧
      result.content = (bodyBytes resp.body).take call.maxBytes

def KeepsFence : Prop :=
  StaysInside parsers call (call.safeFetch parsers net).2 ∧
    EndsWell net call (call.safeFetch parsers net).1 (call.safeFetch parsers net).2

/-- The requests that a call comes to, by the answers of the resolver and the transport. -/
inductive Reaches : Nat → String → Headers → Prop where
  | first (scheme hostname : String) (hscheme : parsers.scheme call.url = some scheme)
      (hmem : scheme ∈ call.schemes.toList)
      (hhost : transportHost parsers call.url = some hostname)
      (hclear : hostname ∈ call.allowedHosts parsers ∨
        safeVerdict (net.resolve 0) hostname = .acceptable) :
      Reaches 0 call.url call.sendHeaders
  | next {hop : Nat} {url : String} {headers : Headers} (resp : Response) (location target : String)
      (hreaches : Reaches hop url headers) (hget : net.get hop url headers = .ok resp)
      (hredirect : Call.redirect resp = some location) (hcloses : resp.closes = none)
      (hcheck : (Call.checkHop parsers net call (hop + 1) url location).1 = .ok target)
      (hleft : hop < call.maxRedirects) :
      Reaches (hop + 1) target (Call.hopHeaders parsers url target headers)

/-- The text of every body that the call comes to read decodes, or fails with an exception
of `requests`. -/
def DecodesBodies : Prop :=
  ∀ hop url headers resp raw, Reaches parsers net call hop url headers →
    net.get hop url headers = .ok resp → Call.redirect resp = none →
    call.readBody [] resp.body = .ok raw → resp.closes = none →
    resp.text (raw.take call.maxBytes) ≠ .error .other

end

section

variable {parsers : UrlParsers} {net : Net} {call : Call}

/-! ### The trace of the hop loop -/

inductive Follows (parsers : UrlParsers) (call : Call) : String → Headers → List Event → Prop where
  | stop (url : String) (headers : Headers) : Follows parsers call url headers []
  | last (url : String) (headers : Headers) :
      Follows parsers call url headers [.requested url headers]
  | refused (url : String) (headers : Headers) (hostname : String) (evidence : Evidence) :
      Follows parsers call url headers [.requested url headers, .judged hostname evidence]
  | next {url target hostname scheme : String} {headers : Headers} {evidence : Evidence}
      {events : List Event} (hscheme : parsers.scheme target = some scheme)
      (hmem : scheme ∈ call.schemes.toList) (hhost : transportHost parsers target = some hostname)
      (hclears : evidence.Clears hostname)
      (hrest : Follows parsers call target (Call.hopHeaders parsers url target headers) events) :
      Follows parsers call url headers
        (.requested url headers :: .judged hostname evidence :: events)

theorem checkHop_cases (parsers : UrlParsers) (net : Net) (call : Call) (hop : Nat)
    (current location : String) :
    (∃ error judged, Call.checkHop parsers net call hop current location = (.error error, judged) ∧
      (judged = [] ∨ ∃ hostname evidence, judged = [.judged hostname evidence])) ∨
    ∃ target hostname scheme evidence,
      Call.checkHop parsers net call hop current location =
        (.ok target, [.judged hostname evidence]) ∧
      parsers.scheme target = some scheme ∧ scheme ∈ call.schemes.toList ∧
      transportHost parsers target = some hostname ∧ evidence.Clears hostname := by
  rw [Call.checkHop]
  split
  next => exact .inl ⟨_, _, rfl, .inl rfl⟩
  next target _ =>
    split
    next => exact .inl ⟨_, _, rfl, .inl rfl⟩
    next scheme hscheme =>
      split
      next => exact .inl ⟨_, _, rfl, .inl rfl⟩
      next hostname hhost =>
        split
        next => exact .inl ⟨_, _, rfl, .inl rfl⟩
        next hmem =>
          dsimp only
          split
          next => exact .inl ⟨_, _, rfl, .inr ⟨_, _, rfl⟩⟩
          next => exact .inl ⟨_, _, rfl, .inr ⟨_, _, rfl⟩⟩
          next hverdict =>
            exact .inr ⟨target, hostname, scheme, _, rfl, hscheme, not_not.mp hmem,
              hhost, clears_of_safeVerdict hverdict⟩

theorem hops_follows (parsers : UrlParsers) (net : Net) (call : Call) (hostname : String)
    (left hop : Nat) (url : String) (headers : Headers) :
    Follows parsers call url headers
        (Call.hops parsers net call hostname left hop url headers).2 ∧
      (requests (Call.hops parsers net call hostname left hop url headers).2).length ≤ left := by
  induction left generalizing hop url headers with
  | zero => exact ⟨.stop _ _, le_rfl⟩
  | succ left ih =>
    have hlast : Follows parsers call url headers [.requested url headers] ∧
        (requests [.requested url headers]).length ≤ left + 1 :=
      ⟨.last _ _, Nat.le_add_left ..⟩
    rw [Call.hops]
    dsimp only
    split
    next => exact hlast
    next resp _ =>
      split
      next => exact hlast
      next location _ =>
        split
        next => exact hlast
        next =>
          obtain ⟨error, judged, hcheck, hjudged⟩ |
            ⟨target, host, scheme, evidence, hcheck, hscheme, hmem, hhost, hclears⟩ :=
              checkHop_cases parsers net call (hop + 1) url location
          · rw [hcheck]
            obtain rfl | ⟨host, evidence, rfl⟩ := hjudged
            · exact hlast
            · exact ⟨.refused _ _ _ _, Nat.le_add_left ..⟩
          · rw [hcheck]
            obtain ⟨hrest, hcount⟩ := ih (hop + 1) target
              (Call.hopHeaders parsers url target headers)
            exact ⟨.next hscheme hmem hhost hclears hrest, Nat.succ_le_succ hcount⟩

namespace Follows

variable {url : String} {headers : Headers} {events : List Event}

theorem sent (hfollows : Follows parsers call url headers events) {before after : List Event}
    {other : String} {carried : Headers}
    (hsplit : events = before ++ .requested other carried :: after) :
    before = [] ∧ other = url ∧ carried = headers ∨
      ∃ earlier hostname evidence scheme, before = earlier ++ [.judged hostname evidence] ∧
        transportHost parsers other = some hostname ∧ evidence.Clears hostname ∧
        parsers.scheme other = some scheme ∧ scheme ∈ call.schemes.toList := by
  induction hfollows generalizing before with
  | stop => simp at hsplit
  | last | refused =>
    cases before with
    | nil =>
      cases hsplit
      exact .inl ⟨rfl, rfl, rfl⟩
    | cons first before =>
      rw [List.cons_append, List.cons.injEq] at hsplit
      cases before with
      | nil => simp at hsplit
      | cons => simp at hsplit
  | @next _ target hostname scheme _ evidence _ hscheme hmem hhost hclears _ ih =>
    cases before with
    | nil =>
      cases hsplit
      exact .inl ⟨rfl, rfl, rfl⟩
    | cons first before =>
      rw [List.cons_append, List.cons.injEq] at hsplit
      obtain ⟨rfl, hsplit⟩ := hsplit
      cases before with
      | nil => cases hsplit
      | cons second before =>
        rw [List.cons_append, List.cons.injEq] at hsplit
        obtain ⟨rfl, hsplit⟩ := hsplit
        right
        obtain ⟨rfl, rfl, _⟩ | ⟨earlier, host, found, name, rfl, hrest⟩ := ih hsplit
        · exact ⟨[_], hostname, evidence, scheme, rfl, hhost, hclears, hscheme, hmem⟩
        · exact ⟨_ :: _ :: earlier, host, found, name, rfl, hrest⟩

theorem carries_of_hopHeaders {target : String}
    (hcarries : CarriesCredential parsers (Call.hopHeaders parsers url target headers)) :
    CarriesCredential parsers headers ∧ origin parsers target = origin parsers url := by
  obtain ⟨entry, hentry, hcredential⟩ := hcarries
  rw [Call.hopHeaders] at hentry
  split at hentry
  next =>
    obtain ⟨_, hkept⟩ := List.mem_filter.mp hentry
    rw [hcredential] at hkept
    cases hkept
  next hsame => exact ⟨⟨entry, hentry, hcredential⟩, not_not.mp hsame⟩

theorem one_origin (hfollows : Follows parsers call url headers events)
    {before after : List Event} {other : String} {carried : Headers}
    (hsplit : events = before ++ .requested other carried :: after)
    (hcarries : CarriesCredential parsers carried) :
    CarriesCredential parsers headers ∧ origin parsers other = origin parsers url ∧
      ∀ earlier ∈ requests before, origin parsers earlier = origin parsers url := by
  induction hfollows generalizing before with
  | stop => simp at hsplit
  | last | refused =>
    cases before with
    | nil =>
      cases hsplit
      exact ⟨hcarries, rfl, nofun⟩
    | cons first before =>
      rw [List.cons_append, List.cons.injEq] at hsplit
      cases before with
      | nil => simp at hsplit
      | cons => simp at hsplit
  | next _ _ _ _ _ ih =>
    cases before with
    | nil =>
      cases hsplit
      exact ⟨hcarries, rfl, nofun⟩
    | cons first before =>
      rw [List.cons_append, List.cons.injEq] at hsplit
      obtain ⟨rfl, hsplit⟩ := hsplit
      cases before with
      | nil => cases hsplit
      | cons second before =>
        rw [List.cons_append, List.cons.injEq] at hsplit
        obtain ⟨rfl, hsplit⟩ := hsplit
        obtain ⟨htarget, hother, hearlier⟩ := ih hsplit
        obtain ⟨hheaders, hsame⟩ := carries_of_hopHeaders htarget
        refine ⟨hheaders, hother.trans hsame, fun earlier hmem => ?_⟩
        obtain rfl | hrest := List.mem_cons.mp hmem
        · rfl
        · exact (hearlier earlier hrest).trans hsame

end Follows

/-- What the run did: nothing, one refused judgement, or the loop, after a judgement that
cleared the host unless the host is allowed. -/
inductive Starts (parsers : UrlParsers) (call : Call) : List Event → Prop where
  | nothing : Starts parsers call []
  | refused (hostname : String) (evidence : Evidence) :
      Starts parsers call [.judged hostname evidence]
  | allowed {hostname scheme : String} {events : List Event}
      (hscheme : parsers.scheme call.url = some scheme) (hmem : scheme ∈ call.schemes.toList)
      (hhost : transportHost parsers call.url = some hostname)
      (hallowed : hostname ∈ call.allowedHosts parsers)
      (hfollows : Follows parsers call call.url call.sendHeaders events)
      (hfew : (requests events).length ≤ call.maxRedirects + 1) : Starts parsers call events
  | cleared {hostname scheme : String} {evidence : Evidence} {events : List Event}
      (hscheme : parsers.scheme call.url = some scheme) (hmem : scheme ∈ call.schemes.toList)
      (hhost : transportHost parsers call.url = some hostname)
      (hclears : evidence.Clears hostname)
      (hfollows : Follows parsers call call.url call.sendHeaders events)
      (hfew : (requests events).length ≤ call.maxRedirects + 1) :
      Starts parsers call (.judged hostname evidence :: events)

theorem safeFetch_starts (parsers : UrlParsers) (net : Net) (call : Call) :
    Starts parsers call (call.safeFetch parsers net).2 := by
  rw [Call.safeFetch]
  split
  next => exact .nothing
  next scheme hscheme =>
    split
    next => exact .nothing
    next hmem =>
      split
      next => exact .nothing
      next hostname hhost =>
        obtain ⟨hfollows, hfew⟩ := hops_follows parsers net call hostname
          (call.maxRedirects + 1) 0 call.url call.sendHeaders
        dsimp only
        split
        next hallowed =>
          exact .allowed hscheme (not_not.mp hmem) hhost hallowed hfollows hfew
        next =>
          split
          next => exact .refused _ _
          next => exact .refused _ _
          next hverdict =>
            exact .cleared hscheme (not_not.mp hmem) hhost
              (clears_of_safeVerdict hverdict) hfollows hfew

theorem Starts.staysInside {events : List Event} (hstarts : Starts parsers call events) :
    StaysInside parsers call events := by
  cases hstarts with
  | nothing => exact ⟨Nat.zero_le _, by simp, by simp, by simp⟩
  | refused hostname evidence =>
    have hnone {before after : List Event} {url : String} {headers : Headers} :
        [Event.judged hostname evidence] ≠ before ++ .requested url headers :: after := by
      cases before <;> simp
    exact ⟨Nat.zero_le _, fun _ _ _ _ h => absurd h hnone, fun _ _ _ _ h => absurd h hnone,
      fun _ _ _ _ h => absurd h hnone⟩
  | @allowed hostname scheme _ hscheme hmem hhost hallowed hfollows hfew =>
    refine ⟨hfew, ?_, ?_, ?_⟩ <;> intro before url headers after hsplit
    · obtain ⟨_, rfl, _⟩ | ⟨_, _, _, name, _, _, _, hname, hin⟩ := hfollows.sent hsplit
      · exact ⟨scheme, hmem, hscheme⟩
      · exact ⟨name, hin, hname⟩
    · obtain ⟨rfl, rfl, _⟩ | ⟨earlier, host, evidence, _, hbefore, hfound, hclears, _⟩ :=
        hfollows.sent hsplit
      · exact ⟨hostname, hhost, .inl ⟨rfl, rfl, hallowed⟩⟩
      · exact ⟨host, hfound, .inr ⟨earlier, evidence, hbefore, hclears⟩⟩
    · intro hcarries other hother
      obtain ⟨_, hurl, hall⟩ := hfollows.one_origin hsplit hcarries
      exact (hall other hother).trans hurl.symm
  | @cleared hostname scheme first events hscheme hmem hhost hfirst hfollows hfew =>
    refine ⟨hfew, ?_, ?_, ?_⟩ <;> intro before url headers after hsplit <;>
      obtain _ | ⟨head, before⟩ := before
    case refine_1.nil | refine_2.nil | refine_3.nil => cases hsplit
    all_goals
      rw [List.cons_append, List.cons.injEq] at hsplit
      obtain ⟨rfl, hsplit⟩ := hsplit
    · obtain ⟨_, rfl, _⟩ | ⟨_, _, _, name, _, _, _, hname, hin⟩ := hfollows.sent hsplit
      · exact ⟨scheme, hmem, hscheme⟩
      · exact ⟨name, hin, hname⟩
    · obtain ⟨rfl, rfl, _⟩ | ⟨earlier, host, evidence, _, rfl, hfound, hclears, _⟩ :=
        hfollows.sent hsplit
      · exact ⟨hostname, hhost, .inr ⟨[], first, rfl, hfirst⟩⟩
      · exact ⟨host, hfound, .inr ⟨_ :: earlier, evidence, rfl, hclears⟩⟩
    · intro hcarries other hother
      obtain ⟨_, hurl, hall⟩ := hfollows.one_origin hsplit hcarries
      exact (hall other hother).trans hurl.symm

/-! ### The end of a run -/

theorem endsWell_failed (net : Net) (call : Call) (error : String) (events : List Event) :
    EndsWell net call (.failed error) events :=
  ⟨⟨none, some error, rfl, by simp⟩, nofun⟩

theorem EndsWell.not_raised {outcome : Outcome} {events : List Event}
    (hends : EndsWell net call outcome events) : outcome ≠ .raised := by
  obtain ⟨_, _, rfl, _⟩ := hends.one
  exact nofun

theorem take_readBody {raw all : List UInt8} {body : List (Except Failure (List UInt8))}
    (hread : call.readBody raw body = .ok all) :
    all.take call.maxBytes = (raw ++ bodyBytes body).take call.maxBytes := by
  induction body generalizing raw with
  | nil =>
    cases hread
    rw [bodyBytes, List.append_nil]
  | cons chunk rest ih =>
    cases chunk with
    | error failure => cases hread
    | ok bytes =>
      rw [Call.readBody] at hread
      rw [bodyBytes, ← List.append_assoc]
      split at hread
      next hover =>
        cases hread
        rw [List.take_append_of_le_length hover.le]
      next => exact ih hread

theorem readResponse_cases (call : Call) (hostname url : String) (resp : Response) :
    (∃ error, call.readResponse hostname url resp = .failed error) ∨
    (∃ result, call.readResponse hostname url resp = .ok result ∧ result.url = url ∧
      result.content = (bodyBytes resp.body).take call.maxBytes) ∨
    call.readResponse hostname url resp = .raised ∧ resp.closes = none ∧
      ∃ raw, call.readBody [] resp.body = .ok raw ∧
        resp.text (raw.take call.maxBytes) = .error .other := by
  rw [Call.readResponse]
  split
  next => exact .inl ⟨_, rfl⟩
  next raw hread =>
    split
    next => exact .inl ⟨_, rfl⟩
    next hcloses =>
      split
      next => exact .inl ⟨_, rfl⟩
      next htext => exact .inr (.inr ⟨rfl, hcloses, raw, hread, htext⟩)
      next => exact .inr (.inl ⟨_, rfl, rfl, take_readBody hread⟩)

theorem readResponse_endsWell {hop : Nat} {url hostname : String} {headers : Headers}
    {resp : Response} (hget : net.get hop url headers = .ok resp)
    (hdecodes : ∀ raw, call.readBody [] resp.body = .ok raw → resp.closes = none →
      resp.text (raw.take call.maxBytes) ≠ .error .other) :
    EndsWell net call (call.readResponse hostname url resp) [.requested url headers] := by
  obtain ⟨error, hfailed⟩ | ⟨result, hok, rfl, hcontent⟩ | ⟨_, hcloses, raw, hread, htext⟩ :=
    readResponse_cases call hostname url resp
  · rw [hfailed]
    exact endsWell_failed _ _ _ _
  · rw [hok]
    refine ⟨⟨some result, none, rfl, by simp⟩, ?_⟩
    rintro _ _ ⟨⟩
    exact ⟨hop, headers, resp, hget, rfl, hcontent⟩
  · exact absurd htext (hdecodes raw hread hcloses)

theorem EndsWell.after {outcome : Outcome} {events : List Event}
    (hends : EndsWell net call outcome events) (before : List Event) :
    EndsWell net call outcome (before ++ events) := by
  refine ⟨hends.one, fun result error hreturned => ?_⟩
  obtain ⟨hop, headers, resp, hget, hlast, hcontent⟩ := hends.content result error hreturned
  refine ⟨hop, headers, resp, hget, ?_, hcontent⟩
  rw [List.getLast?_append, hlast, Option.some_or]

theorem hops_endsWell (hdecodes : DecodesBodies parsers net call) (hostname : String)
    {left hop : Nat} {url : String} {headers : Headers}
    (hreaches : Reaches parsers net call hop url headers)
    (hleft : hop + left = call.maxRedirects + 1) :
    EndsWell net call (Call.hops parsers net call hostname left hop url headers).1
      (Call.hops parsers net call hostname left hop url headers).2 := by
  induction left generalizing hop url headers with
  | zero => exact endsWell_failed _ _ _ _
  | succ left ih =>
    rw [Call.hops]
    dsimp only
    split
    next => exact endsWell_failed _ _ _ _
    next resp hget =>
      split
      next hfinal =>
        exact readResponse_endsWell hget fun raw hread hcloses =>
          hdecodes hop url headers resp raw hreaches hget hfinal hread hcloses
      next location hredirect =>
        split
        next => exact endsWell_failed _ _ _ _
        next hcloses =>
          split
          next => exact endsWell_failed _ _ _ _
          next target judged hcheck =>
            cases left with
            | zero => exact endsWell_failed _ _ _ _
            | succ left =>
              have htarget : Reaches parsers net call (hop + 1) target
                  (Call.hopHeaders parsers url target headers) :=
                .next resp location target hreaches hget hredirect hcloses
                  (by rw [hcheck]) (by omega)
              have hrest := ih htarget (by omega)
              exact hrest.after (.requested url headers :: judged)

theorem Reaches.outcome {hop : Nat} {url : String} {headers : Headers}
    (hreaches : Reaches parsers net call hop url headers) :
    hop ≤ call.maxRedirects ∧ ∃ hostname, (call.safeFetch parsers net).1 =
      (Call.hops parsers net call hostname (call.maxRedirects - hop + 1) hop url headers).1 := by
  induction hreaches with
  | first scheme hostname hscheme hmem hhost hclear =>
    refine ⟨Nat.zero_le _, hostname, ?_⟩
    rw [Call.safeFetch, hscheme]
    dsimp only
    rw [if_neg (not_not.mpr hmem), hhost]
    dsimp only
    split
    next => rfl
    next hother =>
      rw [hclear.resolve_left hother]
      rfl
  | @next hop url headers resp location target _ hget hredirect hcloses hcheck hleft ih =>
    obtain ⟨_, hostname, hsame⟩ := ih
    refine ⟨hleft, hostname, hsame.trans ?_⟩
    have hanswer : Call.checkHop parsers net call (hop + 1) url location =
        (.ok target, (Call.checkHop parsers net call (hop + 1) url location).2) :=
      Prod.ext hcheck rfl
    have hcount : call.maxRedirects - hop = call.maxRedirects - (hop + 1) + 1 := by omega
    rw [Call.hops, hget]
    dsimp only
    rw [hredirect]
    dsimp only
    rw [hcloses]
    dsimp only
    rw [hanswer, hcount]

/-- An outbound fetch keeps its fence exactly when the text of every body that it reads
decodes: what a codec raises, other than an exception of `requests`, leaves the call. -/
theorem keepsFence_iff_decodesBodies (parsers : UrlParsers) (net : Net) (call : Call) :
    KeepsFence parsers net call ↔ DecodesBodies parsers net call := by
  constructor
  · intro hfence hop url headers resp raw hreaches hget hfinal hread hcloses htext
    obtain ⟨_, hostname, hsame⟩ := hreaches.outcome
    refine hfence.2.not_raised (hsame.trans ?_)
    rw [Call.hops, hget]
    dsimp only
    rw [hfinal]
    dsimp only
    rw [Call.readResponse, hread]
    dsimp only
    rw [hcloses]
    dsimp only
    rw [htext]
  · intro hdecodes
    refine ⟨(safeFetch_starts parsers net call).staysInside, ?_⟩
    rw [Call.safeFetch]
    split
    next => exact endsWell_failed _ _ _ _
    next scheme hscheme =>
      split
      next => exact endsWell_failed _ _ _ _
      next hmem =>
        split
        next => exact endsWell_failed _ _ _ _
        next hostname hhost =>
          have hloop (hclear : hostname ∈ call.allowedHosts parsers ∨
              safeVerdict (net.resolve 0) hostname = .acceptable) :=
            hops_endsWell hdecodes hostname
              (.first scheme hostname hscheme (not_not.mp hmem) hhost hclear)
              (Nat.zero_add (call.maxRedirects + 1))
          dsimp only
          split
          next hallowed => exact hloop (.inl hallowed)
          next =>
            split
            next => exact endsWell_failed _ _ _ _
            next => exact endsWell_failed _ _ _ _
            next hverdict => exact (hloop (.inr hverdict)).after _

end

/-! ### A codec that refuses -/

namespace UndefinedCodec

def call : Call := { url := "https://example.com/" }

def parsers : UrlParsers where
  scheme url := if url = call.url then some "https" else none
  join _ _ := none
  parseUrl url := if url = call.url then some ⟨some "https", some "example.com", none⟩ else none
  lower := String.toLower

/-- `undefined` is the codec that raises a UnicodeError for every text, whatever the handler
of errors. -/
def response : Response where
  isRedirect := false
  location := none
  closes := none
  statusCode := 200
  headers := [("Content-Type", "text/plain; charset=undefined")]
  body := [.ok [104, 105]]
  text content := if content = [] then .ok "" else .error .other

def net : Net where
  resolve _ hostname := if hostname = "example.com" then some [.text "93.184.216.34"] else none
  get _ _ _ := .ok response

end UndefinedCodec

/-- A plain response that names the codec `undefined` makes the call raise. -/
theorem not_keepsFence_undefinedCodec :
    ¬ KeepsFence UndefinedCodec.parsers UndefinedCodec.net UndefinedCodec.call := fun hfence =>
  have hraised : (UndefinedCodec.call.safeFetch UndefinedCodec.parsers UndefinedCodec.net).1 =
      .raised := by decide +kernel
  hfence.2.not_raised hraised

end DjangoMojo.Fetch
