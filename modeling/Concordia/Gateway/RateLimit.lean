import Concordia.Lib.SlidingWindow
import Concordia.Locke.Messages

/-! The gateway's request rate limiter: which requests it counts, under which key, and its deque of
admitted times for each key. Times are the values of `time.monotonic()`, whose difference with a
whole number of seconds is not rounded. -/
namespace Concordia.Gateway.RateLimit
open Concordia.Python Concordia.Lib
open Concordia.Js hiding Value

structure Request where
  path : Str
  method : Str
  /-- `request.headers.get(name)`. -/
  header : String → Option Str
  /-- `request.client.host`, when there is a client. -/
  clientHost : Option Str

def publicReadPrefixes : List String :=
  ["/stats", "/agent-status", "/agent-skills", "/proposals", "/evidence", "/room-messages",
    "/suppression-rules"]

def agentControlPlanePrefixes : List String := ["/api/rooms", "/heartbeat"]

/-- `RateLimitMiddleware`, as its constructor lets it be. -/
structure RateLimitMiddleware where
  requestsPerWindow : Nat
  windowSeconds : Nat
  trustProxyHeaders : Bool
  positive : 0 < requestsPerWindow ∧ 0 < windowSeconds
  /-- `sha256(value.encode("utf-8")).hexdigest()`. -/
  sha256Hex : Str → Str

/-- `_hits`: a missing key is an empty deque. -/
abbrev Hits := Str → List ℚ

/-- A text that is there and not empty. -/
def truthy : Option Str → Option Str
  | some (u :: s) => some (u :: s)
  | _ => none

def startsWith (prefixes : List String) (path : Str) : Bool :=
  prefixes.any fun start => (js start).isPrefixOf path

section Limiter
variable (limiter : RateLimitMiddleware) (request : Request)

/-- The requests that are let through before the window is looked at. -/
def exempt : Bool :=
  request.path == js "/health" || request.path == js "/ready" ||
    ((request.method == js "GET" || request.method == js "HEAD" || request.method == js "OPTIONS") &&
      startsWith publicReadPrefixes request.path) ||
    (startsWith agentControlPlanePrefixes request.path &&
      (truthy (request.header "x-agent-key")).isSome)

def credentialKey : Option Str :=
  ["x-agent-key", "x-operator-token", "authorization"].findSome? fun header =>
    (truthy (request.header header)).map fun value =>
      js "credential:" ++ js header ++ js ":" ++ (limiter.sha256Hex value).take 16

/-- `_rate_limit_key`. -/
def rateLimitKey : Str :=
  match credentialKey limiter request with
  | some key => key
  | none =>
    let forwarded := (truthy (request.header "x-forwarded-for")).map fun value =>
      Locke.strip (value.takeWhile (· != 0x2c))
    let proxied := if limiter.trustProxyHeaders then
      (truthy forwarded).or (truthy (request.header "x-real-ip")) else none
    js "ip:" ++ proxied.getD (request.clientHost.getD (js "unknown"))

/-- `while hits and hits[0] < cutoff: hits.popleft()`. -/
def popExpired (cutoff : ℚ) : List ℚ → List ℚ
  | [] => []
  | hit :: hits => if hit < cutoff then popExpired cutoff hits else hit :: hits

/-- `_rate_limited`. -/
def rateLimited (now : ℚ) (hits : Hits) : Bool × Hits :=
  if limiter.requestsPerWindow = 0 ∨ limiter.windowSeconds = 0 then (false, hits)
  else if exempt request then (false, hits)
  else
    let key := rateLimitKey limiter request
    let kept := popExpired (now - limiter.windowSeconds) (hits key)
    if limiter.requestsPerWindow ≤ kept.length then (true, Function.update hits key kept)
    else (false, Function.update hits key (kept ++ [now]))

end Limiter

section Calls
variable (limiter : RateLimitMiddleware)

structure Call where
  request : Request
  time : ℚ

/-- The call is counted, under this key. -/
def counts (key : Str) (call : Call) : Bool :=
  !exempt call.request && rateLimitKey limiter call.request == key

/-- The deques after some calls. -/
def serve (hits : Hits) : List Call → Hits
  | [] => hits
  | call :: calls => serve (rateLimited limiter call.request call.time hits).2 calls

/-- The calls counted under the key, each with whether it was refused. -/
def decisions (key : Str) : Hits → List Call → List (ℚ × Bool)
  | _, [] => []
  | hits, call :: calls =>
    let (refused, next) := rateLimited limiter call.request call.time hits
    if counts limiter key call then (call.time, refused) :: decisions key next calls
    else decisions key next calls

/-- The times of the calls that were not refused. -/
def admitted (made : List (ℚ × Bool)) : List ℚ := (made.filter fun call => !call.2).map Prod.fst

/-- The times of the calls counted under the key. -/
def timesOf (key : Str) (calls : List Call) : List ℚ :=
  (calls.filter (counts limiter key)).map Call.time

variable {limiter} {key : Str} {calls : List Call} {call : Call} {hits : Hits}

theorem popExpired_eq (cutoff : ℚ) (hits : List ℚ) :
    popExpired cutoff hits = hits.dropWhile fun hit => hit < cutoff := by
  induction hits with
  | nil => rfl
  | cons hit hits ih =>
    rw [popExpired, List.dropWhile_cons, ih]
    by_cases hold : hit < cutoff <;> simp [hold]

/-- A counted call is one call of its own window. -/
theorem rateLimited_counted (hits : Hits) (h : counts limiter key call = true) :
    let next := SlidingWindow.call limiter.requestsPerWindow (limiter.windowSeconds : ℚ) (hits key)
      call.time
    rateLimited limiter call.request call.time hits =
      (!next.2, Function.update hits key next.1) := by
  obtain ⟨hexempt, rfl⟩ : exempt call.request = false ∧
      rateLimitKey limiter call.request = key := by simpa [counts] using h
  have hpositive : ¬ (limiter.requestsPerWindow = 0 ∨ limiter.windowSeconds = 0) := by
    have := limiter.positive
    omega
  simp only [rateLimited, hpositive, if_false, hexempt, Bool.false_eq_true, popExpired_eq,
    SlidingWindow.call, SlidingWindow.prune]
  split
  · rename_i hfull
    simp only [hfull, if_true, Bool.not_false]
  · rename_i hfull
    simp only [hfull, if_false, Bool.not_true]

/-- Any other call leaves the deque of the key alone. -/
theorem rateLimited_other (hits : Hits) (h : counts limiter key call = false) :
    (rateLimited limiter call.request call.time hits).2 key = hits key := by
  simp only [rateLimited]
  split
  · rfl
  split
  · rfl
  rename_i hexempt
  have hkey : rateLimitKey limiter call.request ≠ key := by
    intro heq
    simp [counts, hexempt, heq] at h
  split <;> exact Function.update_of_ne hkey.symm _ _

theorem timesOf_counted (h : counts limiter key call = true) :
    timesOf limiter key (call :: calls) = call.time :: timesOf limiter key calls := by
  rw [timesOf, List.filter_cons_of_pos h, List.map_cons, timesOf]

theorem timesOf_other (h : counts limiter key call = false) :
    timesOf limiter key (call :: calls) = timesOf limiter key calls := by
  rw [timesOf, List.filter_cons_of_neg (by rw [h]; exact Bool.false_ne_true), timesOf]

/-- What the limiter keeps and admits for a key is the history of one window over the times of
the key's calls. -/
theorem history_eq (before : List ℚ) :
    (timesOf limiter key calls).foldl
        (SlidingWindow.step limiter.requestsPerWindow (limiter.windowSeconds : ℚ))
        ⟨hits key, before⟩ =
      ⟨serve limiter hits calls key, before ++ admitted (decisions limiter key hits calls)⟩ := by
  induction calls generalizing hits before with
  | nil => simp [timesOf, serve, decisions, admitted]
  | cons call calls ih =>
    rw [serve, decisions]
    cases hcounts : counts limiter key call with
    | false =>
      rw [timesOf_other hcounts, ← rateLimited_other hits hcounts, ih]
      simp
    | true =>
      have hnext := rateLimited_counted hits hcounts
      dsimp only at hnext
      rw [timesOf_counted hcounts, hnext, List.foldl_cons]
      dsimp only [SlidingWindow.step]
      rw [← Function.update_self key (SlidingWindow.call limiter.requestsPerWindow
        (limiter.windowSeconds : ℚ) (hits key) call.time).1 hits, ih]
      simp only [Function.update_self, if_true]
      cases (SlidingWindow.call limiter.requestsPerWindow (limiter.windowSeconds : ℚ) (hits key)
        call.time).2 <;> simp [admitted]

/-- What becomes of the calls for a key depends on their times alone. -/
theorem decisions_eq : decisions limiter key hits calls =
    (SlidingWindow.answers limiter.requestsPerWindow (limiter.windowSeconds : ℚ) (hits key)
      (timesOf limiter key calls)).map fun answer => (answer.1, !answer.2) := by
  induction calls generalizing hits with
  | nil => rfl
  | cons call calls ih =>
    rw [decisions]
    cases hcounts : counts limiter key call with
    | false =>
      rw [timesOf_other hcounts, ← rateLimited_other hits hcounts, ← ih]
      simp
    | true =>
      have hnext := rateLimited_counted hits hcounts
      dsimp only at hnext
      rw [timesOf_counted hcounts, hnext]
      simp [SlidingWindow.answers, ih]

theorem timesOf_sorted (limiter : RateLimitMiddleware) (key : Str)
    (h : calls.Pairwise fun a b => a.time ≤ b.time) :
    (timesOf limiter key calls).Pairwise (· ≤ ·) := by
  rw [timesOf, List.pairwise_map]
  exact h.filter _

end Calls

section Window
variable (limiter : RateLimitMiddleware)

/-- No deque has been made yet. -/
def noHits : Hits := fun _ => []

theorem run_eq (key : Str) (calls : List Call) :
    SlidingWindow.run limiter.requestsPerWindow (limiter.windowSeconds : ℚ)
        (timesOf limiter key calls) =
      ⟨serve limiter noHits calls key, admitted (decisions limiter key noHits calls)⟩ := by
  have h := @history_eq limiter key calls noHits []
  rw [List.nil_append] at h
  exact h

/-- The law of the window, for each key and every sequence of calls at times that do not decrease:
no window holds more than the limit of admitted calls; a call is refused exactly when the window
that ends with it is full; and the calls under other keys change nothing. -/
theorem sliding_window (key : Str) {calls : List Call}
    (hsorted : calls.Pairwise fun a b => a.time ≤ b.time) :
    (∀ start : ℚ, (SlidingWindow.within (limiter.windowSeconds : ℚ) start
      (admitted (decisions limiter key noHits calls))).length ≤ limiter.requestsPerWindow) ∧
    (∀ (before : List Call) (call : Call) (after : List Call), calls = before ++ call :: after →
      counts limiter key call = true →
      ((rateLimited limiter call.request call.time (serve limiter noHits before)).1 = true ↔
        limiter.requestsPerWindow ≤ (SlidingWindow.within (limiter.windowSeconds : ℚ)
          (call.time - limiter.windowSeconds)
          (admitted (decisions limiter key noHits before))).length)) ∧
    ∀ others : List Call,
      others.filter (counts limiter key) = calls.filter (counts limiter key) →
      decisions limiter key noHits others = decisions limiter key noHits calls := by
  refine ⟨?_, ?_, ?_⟩
  · intro start
    have h := SlidingWindow.within_le_limit limiter.requestsPerWindow (limiter.windowSeconds : ℚ)
      (timesOf_sorted limiter key hsorted) start
    rw [run_eq] at h
    exact h
  · rintro before call after rfl hcounts
    have hfirst : (before ++ [call]).Pairwise fun a b => a.time ≤ b.time :=
      List.Pairwise.sublist (by simp) hsorted
    have htimes := timesOf_sorted limiter key hfirst
    have hlast : timesOf limiter key (before ++ [call]) =
        timesOf limiter key before ++ [call.time] := by
      simp [timesOf, hcounts]
    rw [hlast] at htimes
    have h := SlidingWindow.call_refused_iff limiter.requestsPerWindow (limiter.windowSeconds : ℚ)
      htimes
    rw [run_eq] at h
    rw [← h, rateLimited_counted _ hcounts]
    simp
  · intro others hsame
    rw [decisions_eq, decisions_eq, timesOf, timesOf, hsame]

def sampleLimiter : RateLimitMiddleware where
  requestsPerWindow := 1
  windowSeconds := 60
  trustProxyHeaders := false
  positive := by decide
  sha256Hex value := value

def sampleCall (time : ℚ) : Call :=
  ⟨⟨js "/api/demo/activate", js "POST", fun _ => none, none⟩, time⟩

/-- Two calls at the two ends of one window. -/
theorem sliding_window_sample :
    (SlidingWindow.within (60 : ℚ) 5 (admitted (decisions sampleLimiter (js "ip:unknown") noHits
      [sampleCall 5, sampleCall 65]))).length ≤ 1 := by
  have hsorted : [sampleCall 5, sampleCall 65].Pairwise fun a b => a.time ≤ b.time := by
    rw [List.pairwise_pair]
    norm_num [sampleCall]
  exact (sliding_window sampleLimiter (js "ip:unknown") hsorted).1 5

end Window
end Concordia.Gateway.RateLimit
