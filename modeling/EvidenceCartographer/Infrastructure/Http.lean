import EvidenceCartographer.Application.Errors
import EvidenceCartographer.Concurrency.Trace
import Mathlib.Data.List.Basic

/-! The streaming HTTP client: redirects are followed by hand, up to a bound, and the response that is
    none is yielded to the body of a `with`.

    The operations are those of the connection pool and of its responses, each response named by the
    hop that obtained it, and the `yield`, whose answer is how the consumer finished. `Hop` says once
    what one round of the loop can do; the bound, the release of every response and the redirect chain
    that leads to a yield are each an induction over it. -/

namespace EvidenceCartographer.Infrastructure

open Application Concurrency

/-- `REDIRECT_STATUSES`. -/
def redirectStatuses : List Int := [301, 302, 303, 307, 308]

/-- A response of the pool; `location` is what its header map gives for that name. -/
structure PoolResponse where
  status : Int
  headers : List (String × String)
  location : Option String

/-- `_StreamingResponse`; its body is the response of that hop. -/
structure StreamingResponse where
  status : Int
  headers : List (String × String)
  finalUrl : String
  body : Nat

inductive PoolOp where
  | request (hop : Nat) (url : String) (headers : List (String × String))
  | close (hop : Nat)
  | releaseConn (hop : Nat)
  | yield (response : StreamingResponse)

abbrev poolSignature : Signature where
  Op := PoolOp
  Reply
    | .request _ _ _ => Except Exc PoolResponse
    | _ => Except Exc Unit

/-- What the client did, in order. -/
abbrev PoolHistory := List poolSignature.Event

/-- A request was sent. -/
def isRequest : poolSignature.Event → Bool
  | ⟨.request _ _ _, _⟩ => true
  | _ => false

/-- The response of that hop was obtained. -/
def obtains (hop : Nat) : poolSignature.Event → Bool
  | ⟨.request n _ _, .ok _⟩ => n == hop
  | _ => false

/-- The response of that hop was closed. -/
def closes (hop : Nat) : poolSignature.Event → Bool
  | ⟨.close n, _⟩ => n == hop
  | _ => false

/-- The response of that hop was released. -/
def releases (hop : Nat) : poolSignature.Event → Bool
  | ⟨.releaseConn n, _⟩ => n == hop
  | _ => false

/-- Closing and releasing do not raise. -/
def PoolOp.Returns (o : PoolOp) (r : poolSignature.Reply o) : Prop :=
  match o, r with
  | .close _, .error _ | .releaseConn _, .error _ => False
  | _, _ => True

def ReleasesReturn (history : PoolHistory) : Prop := ∀ event ∈ history, event.1.Returns event.2

/-- Of the hops from `hop` on, each response obtained was closed and released once, but for the one
    that is held. -/
structure Balanced (hop : Nat) (held : Option Nat) (history : PoolHistory) : Prop where
  fresh : ∀ n < hop, history.countP (obtains n) = 0
  once : ∀ n, history.countP (obtains n) ≤ 1
  closed : ∀ n, history.countP (closes n) + (if held = some n then 1 else 0) =
    history.countP (obtains n)
  released : ∀ n, history.countP (releases n) ≤ history.countP (closes n)
  returned : ReleasesReturn history →
    ∀ n, history.countP (releases n) = history.countP (closes n)

section Balanced

variable {hop : Nat} {url : String} {headers : List (String × String)} {response : PoolResponse}
  {history : PoolHistory}

theorem Balanced.nil : Balanced hop none [] := by constructor <;> simp

/-- A request that was not answered obtains nothing. -/
theorem Balanced.failed (exc : Exc) :
    Balanced hop none [⟨.request hop url headers, .error exc⟩] := by
  constructor <;> simp [obtains, closes, releases]

theorem Balanced.landed :
    Balanced hop (some hop) [⟨.request hop url headers, .ok response⟩] where
  fresh n hn := by simp [obtains]; omega
  once n := List.countP_le_length
  closed n := by by_cases h : hop = n <;> simp [obtains, closes, h]
  released n := by simp [releases, closes]
  returned _ n := by simp [releases, closes]

theorem Balanced.unclosed (exc : Exc) :
    Balanced hop none [⟨.request hop url headers, .ok response⟩,
      ⟨.close hop, .error exc⟩] where
  fresh n hn := by simp [obtains]; omega
  once n := by by_cases h : hop = n <;> simp [obtains, h]
  closed n := by by_cases h : hop = n <;> simp [obtains, closes, h]
  released n := by simp [releases]
  returned h := (h ⟨.close hop, .error exc⟩ (by simp)).elim

theorem Balanced.unreleased (exc : Exc) :
    Balanced hop none [⟨.request hop url headers, .ok response⟩,
      ⟨.close hop, .ok ()⟩, ⟨.releaseConn hop, .error exc⟩] where
  fresh n hn := by simp [obtains]; omega
  once n := by by_cases h : hop = n <;> simp [obtains, h]
  closed n := by by_cases h : hop = n <;> simp [obtains, closes, h]
  released n := by by_cases h : hop = n <;> simp [releases, closes, h]
  returned h := (h ⟨.releaseConn hop, .error exc⟩ (by simp)).elim

/-- A response that was closed and released, and then those of later hops. -/
theorem Balanced.followed {last : Option Nat} (h : Balanced (hop + 1) last history) :
    Balanced hop last (⟨.request hop url headers, .ok response⟩ ::
      ⟨.close hop, .ok ()⟩ :: ⟨.releaseConn hop, .ok ()⟩ :: history) := by
  have hnext := h.fresh hop (Nat.lt_succ_self hop)
  constructor
  · intro n hn
    have hfresh := h.fresh n (Nat.lt_succ_of_lt hn)
    have hne : hop ≠ n := by omega
    simp [obtains, hne, hfresh]
  · intro n
    have honce := h.once n
    by_cases heq : hop = n
    · subst heq; simp [obtains, hnext]
    · simp [obtains, heq, honce]
  · intro n
    have hclosed := h.closed n
    by_cases heq : hop = n
    · subst heq; simp [obtains, closes]; omega
    · simp [obtains, closes, heq, hclosed]
  · intro n
    have hreleased := h.released n
    by_cases heq : hop = n
    · subst heq; simp [closes, releases, hreleased]
    · simp [closes, releases, heq, hreleased]
  · intro hreturn n
    have hreturned := h.returned (fun event hevent => hreturn event (by simp [hevent])) n
    by_cases heq : hop = n
    · subst heq; simp [closes, releases, hreturned]
    · simp [closes, releases, heq, hreturned]

end Balanced

/-- Every response obtained is held by nobody in the end. -/
structure Released (history : PoolHistory) : Prop where
  once : ∀ n, history.countP (obtains n) ≤ 1
  closed : ∀ n, history.countP (closes n) = history.countP (obtains n)
  released : ∀ n, history.countP (releases n) ≤ history.countP (obtains n)
  returned : ReleasesReturn history →
    ∀ n, history.countP (releases n) = history.countP (obtains n)

theorem Balanced.none_released {hop : Nat} {history : PoolHistory} (h : Balanced hop none history) :
    Released history := by
  have hclosed : ∀ n, history.countP (closes n) = history.countP (obtains n) := by
    simpa using h.closed
  exact ⟨h.once, hclosed, fun n => hclosed n ▸ h.released n, fun hr n => hclosed n ▸ h.returned hr n⟩

/-- The calls of a response that is yielded, after those of the loop. -/
inductive Yielded (response : StreamingResponse) :
    PoolHistory → Except Exc Unit → Prop where
  | unclosed (answer exc) : Yielded response
      [⟨.yield response, answer⟩, ⟨.close response.body, .error exc⟩] (.error exc)
  | unreleased (answer exc) : Yielded response [⟨.yield response, answer⟩,
      ⟨.close response.body, .ok ()⟩, ⟨.releaseConn response.body, .error exc⟩] (.error exc)
  | released (answer) : Yielded response [⟨.yield response, answer⟩,
      ⟨.close response.body, .ok ()⟩, ⟨.releaseConn response.body, .ok ()⟩] answer

/-- The one event of these calls that is a yield stands first. -/
theorem Yielded.eq_cons {response : StreamingResponse} {after : PoolHistory} {r : Except Exc Unit}
    (h : Yielded response after r) : ∃ answer rest, after = ⟨.yield response, answer⟩ :: rest ∧
      rest.countP isRequest = 0 ∧ (ReleasesReturn after → r = answer) ∧
      ∀ response' answer', (⟨.yield response', answer'⟩ : poolSignature.Event) ∉ rest := by
  cases h with
  | unclosed answer exc =>
    refine ⟨answer, _, rfl, rfl, fun hreturn => ?_, by simp⟩
    exact (hreturn ⟨.close response.body, .error exc⟩ (by simp)).elim
  | unreleased answer exc =>
    refine ⟨answer, _, rfl, rfl, fun hreturn => ?_, by simp⟩
    exact (hreturn ⟨.releaseConn response.body, .error exc⟩ (by simp)).elim
  | released => exact ⟨r, _, rfl, rfl, fun _ => rfl, by simp⟩

/-- A yield among calls of which one is a yield is that one. -/
theorem eq_of_mem_yield {response : StreamingResponse} {answer : Except Exc Unit}
    {before rest : PoolHistory}
    (hbefore : ∀ response answer, (⟨.yield response, answer⟩ : poolSignature.Event) ∉ before)
    (hrest : ∀ response answer, (⟨.yield response, answer⟩ : poolSignature.Event) ∉ rest)
    {response' : StreamingResponse} {answer' : Except Exc Unit}
    (hmem : (⟨.yield response', answer'⟩ : poolSignature.Event) ∈
      before ++ ⟨.yield response, answer⟩ :: rest) : response' = response ∧ answer' = answer := by
  rcases List.mem_append.mp hmem with hmem | hmem
  · exact absurd hmem (hbefore response' answer')
  rcases List.mem_cons.mp hmem with heq | hmem
  · cases heq
    exact ⟨rfl, rfl⟩
  · exact absurd hmem (hrest response' answer')

/-- The yielded response is the one that was held, and is let go of last. -/
theorem Balanced.yielded {hop : Nat} {response : StreamingResponse} {before after : PoolHistory}
    {r : Except Exc Unit} (h : Balanced hop (some response.body) before)
    (hyielded : Yielded response after r) : Released (before ++ after) := by
  have hreturns : ReleasesReturn (before ++ after) → ReleasesReturn before ∧ ReleasesReturn after :=
    List.forall_mem_append.mp
  have hobtains : ∀ n, after.countP (obtains n) = 0 := by
    intro n; cases hyielded <;> simp [obtains]
  have hcloses : ∀ n, after.countP (closes n) = if some response.body = some n then 1 else 0 := by
    intro n; cases hyielded <;> simp [List.countP_cons, closes]
  have hreleases : ∀ n, after.countP (releases n) ≤ if some response.body = some n then 1 else 0 := by
    intro n; cases hyielded <;> simp [List.countP_cons, releases]
  have hreturned : ReleasesReturn after →
      ∀ n, after.countP (releases n) = if some response.body = some n then 1 else 0 := by
    intro hreturn n
    cases hyielded with
    | unclosed answer exc => exact (hreturn ⟨.close response.body, .error exc⟩ (by simp)).elim
    | unreleased answer exc =>
      exact (hreturn ⟨.releaseConn response.body, .error exc⟩ (by simp)).elim
    | released answer => simp [List.countP_cons, releases]
  refine ⟨fun n => ?_, fun n => ?_, fun n => ?_, fun hreturn n => ?_⟩
  · rw [List.countP_append, hobtains]
    exact h.once n
  · rw [List.countP_append, List.countP_append, hobtains, hcloses]
    exact h.closed n
  · rw [List.countP_append, List.countP_append, hobtains]
    have := h.closed n
    have := h.released n
    have := hreleases n
    omega
  · rw [List.countP_append, List.countP_append, hobtains, hreturned (hreturns hreturn).2,
      h.returned (hreturns hreturn).1]
    exact h.closed n

namespace Urllib3StreamingHttpClient

/-- What is raised for a redirect that is not followed. -/
def redirectError : Exc := .other "RuntimeError" "HTTP redirect chain is invalid or too long"

section Client

variable (urljoin : String → String → String) (headers : Option (List (String × String)))
  (maxRedirects : Nat)

/-- `response.close()` and `response.release_conn()`. -/
def release (hop : Nat) : Program poolSignature Exc Unit := do
  .call (.close hop) .ofExcept
  .call (.releaseConn hop) .ofExcept

/-- The loop of `open`: the rounds that remain, `redirect_count` and `current_url`. -/
def redirects : Nat → Nat → String →
    Program poolSignature Exc (Option (Nat × PoolResponse) × String)
  | 0, _, currentUrl => .ret (none, currentUrl)
  | remaining + 1, redirectCount, currentUrl => do
    let response ← .call (.request redirectCount currentUrl (headers.getD [])) .ofExcept
    if response.status ∉ redirectStatuses then return (some (redirectCount, response), currentUrl)
    else
      release redirectCount
      match response.location with
      | none => .raise redirectError
      | some location =>
        if redirectCount = maxRedirects then .raise redirectError
        else redirects remaining (redirectCount + 1) (urljoin currentUrl location)

/-- `open`, a generator: its consumer runs at the `yield`. -/
def openUrl (url : String) : Program poolSignature Exc Unit := do
  match ← redirects urljoin headers maxRedirects (maxRedirects + 1) 0 url with
  | (none, _) => .raise (.other "RuntimeError" "HTTP response was not created")
  | (some (hop, response), currentUrl) =>
    (.call (.yield ⟨response.status, response.headers, currentUrl, hop⟩) .ofExcept :
      Program poolSignature Exc Unit).ensuring (release hop)

/-- What one round of the loop can do. -/
inductive Hop (remaining hop : Nat) (url : String) :
    PoolHistory → Except Exc (Option (Nat × PoolResponse) × String) → Prop where
  | failed (exc) : Hop remaining hop url
      [⟨.request hop url (headers.getD []), .error exc⟩] (.error exc)
  | landed (response : PoolResponse) : response.status ∉ redirectStatuses →
      Hop remaining hop url [⟨.request hop url (headers.getD []), .ok response⟩]
        (.ok (some (hop, response), url))
  | unclosed (response : PoolResponse) (exc) : response.status ∈ redirectStatuses →
      Hop remaining hop url [⟨.request hop url (headers.getD []), .ok response⟩,
        ⟨.close hop, .error exc⟩] (.error exc)
  | unreleased (response : PoolResponse) (exc) : response.status ∈ redirectStatuses →
      Hop remaining hop url [⟨.request hop url (headers.getD []), .ok response⟩,
        ⟨.close hop, .ok ()⟩, ⟨.releaseConn hop, .error exc⟩] (.error exc)
  | refused (response : PoolResponse) : response.status ∈ redirectStatuses →
      response.location = none ∨ hop = maxRedirects →
      Hop remaining hop url [⟨.request hop url (headers.getD []), .ok response⟩,
        ⟨.close hop, .ok ()⟩, ⟨.releaseConn hop, .ok ()⟩] (.error redirectError)
  | followed (response : PoolResponse) (location history r) : response.status ∈ redirectStatuses →
      response.location = some location → hop ≠ maxRedirects →
      (redirects urljoin headers maxRedirects remaining (hop + 1) (urljoin url location)).Trace
        history r →
      Hop remaining hop url (⟨.request hop url (headers.getD []), .ok response⟩ ::
        ⟨.close hop, .ok ()⟩ :: ⟨.releaseConn hop, .ok ()⟩ :: history) r

end Client

variable {urljoin : String → String → String} {headers : Option (List (String × String))}
  {maxRedirects remaining hop : Nat} {url : String} {history : PoolHistory}

/-- Closing comes first, and a raise of it skips the release. -/
theorem release_trace {r : Except Exc Unit} (h : (release hop).Trace history r) :
    (∃ exc, history = [⟨.close hop, .error exc⟩] ∧ r = .error exc) ∨
      history = [⟨.close hop, .ok ()⟩, ⟨.releaseConn hop, r⟩] := by
  obtain ⟨before, after, closed, rfl, hclose, hafter⟩ := Program.trace_bind.mp h
  obtain ⟨_, rfl, rfl⟩ := Program.trace_reply.mp hclose
  rcases closed with exc | ⟨⟨⟩⟩
  · obtain ⟨rfl, rfl⟩ := hafter
    exact .inl ⟨exc, rfl, rfl⟩
  · obtain ⟨_, rfl, rfl⟩ := Program.trace_reply.mp hafter
    exact .inr rfl

theorem hop_of_trace {r : Except Exc (Option (Nat × PoolResponse) × String)}
    (h : (redirects urljoin headers maxRedirects (remaining + 1) hop url).Trace history r) :
    Hop urljoin headers maxRedirects remaining hop url history r := by
  obtain ⟨before, rest, answer, rfl, hrequest, hanswer⟩ := Program.trace_bind.mp h
  obtain ⟨_, rfl, rfl⟩ := Program.trace_reply.mp hrequest
  rcases answer with exc | response
  · obtain ⟨rfl, rfl⟩ := hanswer
    exact .failed exc
  dsimp only at hanswer
  split at hanswer
  · rename_i hstatus
    obtain ⟨rfl, rfl⟩ := hanswer
    exact .landed response hstatus
  rename_i hstatus
  have hstatus : response.status ∈ redirectStatuses := not_not.mp hstatus
  obtain ⟨released, after, cleaned, rfl, hrelease, hafter⟩ := Program.trace_bind.mp hanswer
  rcases release_trace hrelease with ⟨exc, rfl, rfl⟩ | rfl
  · obtain ⟨rfl, rfl⟩ := hafter
    exact .unclosed response exc hstatus
  rcases cleaned with exc | ⟨⟨⟩⟩
  · obtain ⟨rfl, rfl⟩ := hafter
    exact .unreleased response exc hstatus
  dsimp only at hafter
  cases hlocation : response.location with
  | none =>
    rw [hlocation] at hafter
    obtain ⟨rfl, rfl⟩ := hafter
    exact .refused response hstatus (.inl hlocation)
  | some location =>
    rw [hlocation] at hafter
    dsimp only at hafter
    split at hafter
    · rename_i hlast
      obtain ⟨rfl, rfl⟩ := hafter
      exact .refused response hstatus (.inr hlast)
    · rename_i hlast
      exact .followed response location after r hstatus hlocation hlast hafter

/-- What the loop hands on. -/
def held : Except Exc (Option (Nat × PoolResponse) × String) → Option Nat
  | .ok (some (hop, _), _) => some hop
  | _ => none

/-- By induction on the rounds that remain. -/
theorem redirects_balanced {r : Except Exc (Option (Nat × PoolResponse) × String)}
    (h : (redirects urljoin headers maxRedirects remaining hop url).Trace history r) :
    history.countP isRequest ≤ remaining ∧ Balanced hop (held r) history := by
  induction remaining generalizing hop url history with
  | zero =>
    obtain ⟨rfl, rfl⟩ := h
    exact ⟨Nat.le_refl 0, .nil⟩
  | succ remaining ih =>
    cases hop_of_trace h with
    | failed exc => exact ⟨by simp [List.countP_cons, isRequest], .failed exc⟩
    | landed response hstatus => exact ⟨by simp [List.countP_cons, isRequest], .landed⟩
    | unclosed response exc hstatus => exact ⟨by simp [List.countP_cons, isRequest], .unclosed exc⟩
    | unreleased response exc hstatus => exact ⟨by simp [List.countP_cons, isRequest], .unreleased exc⟩
    | refused response hstatus hlast => exact ⟨by simp [List.countP_cons, isRequest], .followed .nil⟩
    | followed response location rest _ hstatus hlocation hlast hrest =>
      obtain ⟨hsent, hbalanced⟩ := ih hrest
      exact ⟨by simpa [List.countP_cons, isRequest] using hsent, .followed hbalanced⟩

/-- The server answers every request, as a function of the hop and of the URL. -/
def Serves (server : Nat → String → Except Exc PoolResponse) (history : PoolHistory) : Prop :=
  ∀ hop url headers answer, (⟨.request hop url headers, answer⟩ : poolSignature.Event) ∈ history →
    answer = server hop url

theorem Serves.of_subset {server : Nat → String → Except Exc PoolResponse} {part : PoolHistory}
    (h : Serves server history) (hsub : part ⊆ history) : Serves server part :=
  fun hop url headers answer hmem => h hop url headers answer (hsub hmem)

/-- From this hop and URL on, the server redirects along these locations and then gives `final`. -/
structure Lands (urljoin : String → String → String)
    (server : Nat → String → Except Exc PoolResponse) (hop : Nat) (url : String)
    (locations : List String) (final : PoolResponse) : Prop where
  redirected : ∀ n (h : n < locations.length), ∃ response,
    server (hop + n) ((locations.take n).foldl urljoin url) = .ok response ∧
      response.status ∈ redirectStatuses ∧ response.location = some locations[n]
  landed : server (hop + locations.length) (locations.foldl urljoin url) = .ok final
  final : final.status ∉ redirectStatuses

section Lands

variable {server : Nat → String → Except Exc PoolResponse} {response final : PoolResponse}
  {location : String} {locations : List String}

theorem Lands.nil (h : server hop url = .ok final) (hfinal : final.status ∉ redirectStatuses) :
    Lands urljoin server hop url [] final :=
  ⟨fun _ hn => absurd hn (Nat.not_lt_zero _), h, hfinal⟩

theorem lands_cons : Lands urljoin server hop url (location :: locations) final ↔
    (∃ response, server hop url = .ok response ∧ response.status ∈ redirectStatuses ∧
      response.location = some location) ∧
    Lands urljoin server (hop + 1) (urljoin url location) locations final := by
  have shift : ∀ n, hop + (n + 1) = hop + 1 + n := fun n => by omega
  constructor
  · intro h
    refine ⟨h.redirected 0 (Nat.succ_pos _), fun n hn => ?_, ?_, h.final⟩
    · have := h.redirected (n + 1) (Nat.succ_lt_succ hn)
      rwa [shift] at this
    · have := h.landed
      rwa [List.length_cons, shift] at this
  · rintro ⟨hfirst, h⟩
    refine ⟨fun n hn => ?_, ?_, h.final⟩
    · rcases n with _ | n
      · exact hfirst
      · rw [shift]
        exact h.redirected n (Nat.lt_of_succ_lt_succ hn)
    · rw [List.length_cons, shift]
      exact h.landed

variable {r : Except Exc (Option (Nat × PoolResponse) × String)}

/-- What the loop returns is where a redirect chain of the server ends. -/
theorem redirects_sound
    (h : (redirects urljoin headers maxRedirects remaining hop url).Trace history r)
    (hserver : Serves server history) {n : Nat} {finalUrl : String}
    (hr : r = .ok (some (n, final), finalUrl)) : ∃ locations, locations.length < remaining ∧
      Lands urljoin server hop url locations final ∧ n = hop + locations.length ∧
      finalUrl = locations.foldl urljoin url := by
  induction remaining generalizing hop url history with
  | zero =>
    obtain ⟨rfl, rfl⟩ := h
    cases hr
  | succ remaining ih =>
    cases hop_of_trace h with
    | failed | unclosed | unreleased | refused => cases hr
    | landed response hstatus =>
      cases hr
      have hanswer := hserver _ _ _ _ List.mem_cons_self
      exact ⟨[], Nat.succ_pos _, .nil hanswer.symm hstatus, rfl, rfl⟩
    | followed response location rest _ hstatus hlocation hlast hrest =>
      have hanswer := hserver _ _ _ _ List.mem_cons_self
      have hserver' : Serves server rest :=
        hserver.of_subset fun event hevent => by simp [hevent]
      obtain ⟨locations, hlength, hlands, hn, hurl⟩ := ih hrest hserver'
      refine ⟨location :: locations, Nat.succ_lt_succ hlength, ?_, ?_, hurl⟩
      · exact lands_cons.mpr ⟨⟨response, hanswer.symm, hstatus, hlocation⟩, hlands⟩
      · rw [hn, List.length_cons]; omega

/-- A redirect chain that is short enough is followed to its end. -/
theorem redirects_complete
    (h : (redirects urljoin headers maxRedirects remaining hop url).Trace history r)
    (hserver : Serves server history) (hreturn : ReleasesReturn history)
    (hcount : remaining + hop = maxRedirects + 1) (hlength : locations.length < remaining)
    (hlands : Lands urljoin server hop url locations final) :
    r = .ok (some (hop + locations.length, final), locations.foldl urljoin url) := by
  induction remaining generalizing hop url history locations with
  | zero => exact absurd hlength (Nat.not_lt_zero _)
  | succ remaining ih =>
    have hstep := hop_of_trace h
    rcases locations with _ | ⟨location, locations⟩
    · -- the first answer is already final
      have hfinal : server hop url = .ok final := hlands.landed
      cases hstep with
      | failed exc => cases (hserver _ _ _ _ List.mem_cons_self).trans hfinal
      | landed response hstatus =>
        cases (hserver _ _ _ _ List.mem_cons_self).trans hfinal
        rfl
      | unclosed response exc hstatus | unreleased response exc hstatus
      | refused response hstatus | followed response _ _ _ hstatus =>
        cases (hserver _ _ _ _ List.mem_cons_self).trans hfinal
        exact absurd hstatus hlands.final
    · obtain ⟨⟨first, hfirst, hredirect, hlocation⟩, hlands'⟩ := lands_cons.mp hlands
      cases hstep with
      | failed exc => cases (hserver _ _ _ _ List.mem_cons_self).trans hfirst
      | landed response hstatus =>
        cases (hserver _ _ _ _ List.mem_cons_self).trans hfirst
        exact absurd hredirect hstatus
      | unclosed response exc hstatus =>
        exact (hreturn ⟨.close hop, .error exc⟩ (by simp)).elim
      | unreleased response exc hstatus =>
        exact (hreturn ⟨.releaseConn hop, .error exc⟩ (by simp)).elim
      | refused response hstatus hlast =>
        cases (hserver _ _ _ _ List.mem_cons_self).trans hfirst
        rcases hlast with hnone | hlast
        · rw [hlocation] at hnone; cases hnone
        · rw [List.length_cons] at hlength; omega
      | followed response location' rest _ hstatus hlocation' hlast hrest =>
        cases (hserver _ _ _ _ List.mem_cons_self).trans hfirst
        cases hlocation.symm.trans hlocation'
        have hserver' : Serves server rest :=
          hserver.of_subset fun event hevent => by simp [hevent]
        have hreturn' : ReleasesReturn rest := fun event hevent =>
          hreturn event (by simp [hevent])
        have hlength' := Nat.lt_of_succ_lt_succ hlength
        have hshift : hop + 1 + locations.length = hop + (locations.length + 1) := by omega
        have hrun := ih hrest hserver' hreturn' (by omega) hlength' hlands'
        rw [hshift] at hrun
        exact hrun

end Lands

/-- The last round returns or raises, so the loop never runs out. -/
theorem redirects_ne_none {r : Except Exc (Option (Nat × PoolResponse) × String)}
    (h : (redirects urljoin headers maxRedirects remaining hop url).Trace history r)
    (hpos : 0 < remaining) (hcount : remaining + hop = maxRedirects + 1) (finalUrl : String) :
    r ≠ .ok (none, finalUrl) := by
  induction remaining generalizing hop url history with
  | zero => exact absurd hpos (Nat.lt_irrefl 0)
  | succ remaining ih =>
    cases hop_of_trace h with
    | failed | landed | unclosed | unreleased | refused => nofun
    | followed response location rest _ hstatus hlocation hlast hrest =>
      exact ih hrest (by omega) (by omega)

/-- The loop yields nothing. -/
theorem redirects_not_yield {r : Except Exc (Option (Nat × PoolResponse) × String)}
    (h : (redirects urljoin headers maxRedirects remaining hop url).Trace history r)
    (response : StreamingResponse) (answer : Except Exc Unit) :
    (⟨.yield response, answer⟩ : poolSignature.Event) ∉ history := by
  induction remaining generalizing hop url history with
  | zero =>
    obtain ⟨rfl, rfl⟩ := h
    exact List.not_mem_nil
  | succ remaining ih =>
    cases hop_of_trace h with
    | failed | landed | unclosed | unreleased | refused => simp
    | followed _ location rest _ hstatus hlocation hlast hrest => simpa using ih hrest

/-- A call of `open` is a run of its loop, and the yield of what that returns. -/
theorem openUrl_trace {r : Except Exc Unit}
    (h : (openUrl urljoin headers maxRedirects url).Trace history r) :
    ∃ before after r₁, history = before ++ after ∧
      (redirects urljoin headers maxRedirects (maxRedirects + 1) 0 url).Trace before r₁ ∧
      ((∃ exc, r₁ = .error exc ∧ after = [] ∧ r = .error exc) ∨
        ∃ hop response finalUrl, r₁ = .ok (some (hop, response), finalUrl) ∧
          Yielded ⟨response.status, response.headers, finalUrl, hop⟩ after r) := by
  obtain ⟨before, after, r₁, rfl, hloop, hafter⟩ := Program.trace_bind.mp h
  refine ⟨before, after, r₁, rfl, hloop, ?_⟩
  rcases r₁ with exc | ⟨_ | ⟨hop, response⟩, finalUrl⟩
  · exact .inl ⟨exc, rfl, hafter.1, hafter.2⟩
  · exact absurd rfl (redirects_ne_none hloop (Nat.succ_pos _) rfl finalUrl)
  · refine .inr ⟨hop, response, finalUrl, rfl, ?_⟩
    obtain ⟨yielded, cleanup, answer, cleaned, rfl, hyield, hrelease, rfl⟩ :=
      Program.trace_ensuring.mp hafter
    obtain ⟨_, rfl, rfl⟩ := Program.trace_reply.mp hyield
    rcases release_trace hrelease with ⟨exc, rfl, rfl⟩ | rfl
    · exact .unclosed answer exc
    · rcases cleaned with exc | ⟨⟨⟩⟩
      · exact .unreleased answer exc
      · exact .released answer

/-- Every run of the loop is one against some server, since no hop is requested twice. -/
theorem redirects_served {r : Except Exc (Option (Nat × PoolResponse) × String)}
    (h : (redirects urljoin headers maxRedirects remaining hop url).Trace history r) :
    ∃ server, Serves server history ∧ ∀ n url headers answer,
      (⟨.request n url headers, answer⟩ : poolSignature.Event) ∈ history → hop ≤ n := by
  induction remaining generalizing hop url history with
  | zero =>
    obtain ⟨rfl, rfl⟩ := h
    exact ⟨fun _ _ => .error redirectError, nofun, nofun⟩
  | succ remaining ih =>
    cases hop_of_trace h with
    | failed exc => exact ⟨fun _ _ => .error exc, by simp [Serves], by simp +contextual⟩
    | landed response | unclosed response | unreleased response | refused response =>
      exact ⟨fun _ _ => .ok response, by simp [Serves], by simp +contextual⟩
    | followed response location rest _ hstatus hlocation hlast hrest =>
      obtain ⟨server, hserver, hlater⟩ := ih hrest
      refine ⟨fun n url => if n = hop then .ok response else server n url, ?_, ?_⟩
      · intro n url headers answer hmem
        rcases List.mem_cons.mp hmem with heq | hmem
        · cases heq
          exact (if_pos rfl).symm
        · have hmem : (⟨.request n url headers, answer⟩ : poolSignature.Event) ∈ rest := by
            simpa using hmem
          have hne : n ≠ hop := Nat.ne_of_gt (hlater n url headers answer hmem)
          exact (hserver n url headers answer hmem).trans (if_neg hne).symm
      · intro n url headers answer hmem
        rcases List.mem_cons.mp hmem with heq | hmem
        · cases heq
          exact Nat.le_refl _
        · exact Nat.le_of_succ_le (hlater n url headers answer (by simpa using hmem))

/-- So is every run of `open`. -/
theorem openUrl_served {r : Except Exc Unit}
    (h : (openUrl urljoin headers maxRedirects url).Trace history r) :
    ∃ server, Serves server history := by
  obtain ⟨before, after, r₁, rfl, hloop, hcases⟩ := openUrl_trace h
  obtain ⟨server, hserver, -⟩ := redirects_served hloop
  refine ⟨server, fun n url headers answer hmem => ?_⟩
  rcases List.mem_append.mp hmem with hmem | hmem
  · exact hserver n url headers answer hmem
  · rcases hcases with ⟨exc, -, rfl, -⟩ | ⟨hop, response, finalUrl, -, hyielded⟩
    · cases hmem
    · obtain ⟨yielded, rest, rfl, hrest, -⟩ := hyielded.eq_cons
      have hquiet := List.countP_eq_zero.mp hrest
      rcases List.mem_cons.mp hmem with heq | hmem
      · cases heq
      · exact absurd rfl (hquiet _ hmem)

/-- For every server: `open` sends at most one request more than it may follow redirects; every
    response it obtains is closed once and, where closing does not raise, released once; and then it
    yields exactly if a redirect chain that is short enough ends in a final response, which is what it
    yields, to let go of it when the consumer is done. Otherwise it raises. -/
theorem open_redirects {r : Except Exc Unit} {server : Nat → String → Except Exc PoolResponse}
    (h : (openUrl urljoin headers maxRedirects url).Trace history r)
    (hserver : Serves server history) :
    history.countP isRequest ≤ maxRedirects + 1 ∧ Released history ∧
    (∀ response answer, (⟨.yield response, answer⟩ : poolSignature.Event) ∈ history →
      ∃ before after locations final, history = before ++ ⟨.yield response, answer⟩ :: after ∧
        before.countP (closes response.body) = 0 ∧ before.countP (releases response.body) = 0 ∧
        locations.length ≤ maxRedirects ∧ Lands urljoin server 0 url locations final ∧
        response = ⟨final.status, final.headers, locations.foldl urljoin url, locations.length⟩) ∧
    (ReleasesReturn history →
      (∀ response answer, (⟨.yield response, answer⟩ : poolSignature.Event) ∈ history →
        r = answer) ∧
      (∀ locations final, locations.length ≤ maxRedirects →
        Lands urljoin server 0 url locations final → ∃ answer,
          (⟨.yield ⟨final.status, final.headers, locations.foldl urljoin url, locations.length⟩,
            answer⟩ : poolSignature.Event) ∈ history)) ∧
    ((∀ response answer, (⟨.yield response, answer⟩ : poolSignature.Event) ∉ history) →
      ∃ exc, r = .error exc) := by
  obtain ⟨before, after, r₁, rfl, hloop, hcases⟩ := openUrl_trace h
  obtain ⟨hsent, hbalanced⟩ := redirects_balanced hloop
  have hquiet := redirects_not_yield hloop
  have hserver' : Serves server before := hserver.of_subset (List.subset_append_left ..)
  have hcomplete (hreturn : ReleasesReturn before) {locations : List String} {final : PoolResponse}
      (hlength : locations.length ≤ maxRedirects)
      (hlands : Lands urljoin server 0 url locations final) :
      r₁ = .ok (some (locations.length, final), locations.foldl urljoin url) := by
    have hend := redirects_complete hloop hserver' hreturn rfl (Nat.lt_succ_of_le hlength) hlands
    rwa [Nat.zero_add] at hend
  rcases hcases with ⟨exc, rfl, rfl, rfl⟩ | ⟨hop, final, finalUrl, rfl, hyielded⟩
  · -- the loop raised, so nothing is yielded
    rw [List.append_nil]
    refine ⟨hsent, hbalanced.none_released, fun response answer hmem => ?_, fun hreturn => ⟨?_, ?_⟩,
      fun _ => ⟨exc, rfl⟩⟩
    · exact absurd hmem (hquiet response answer)
    · exact fun response answer hmem => absurd hmem (hquiet response answer)
    · exact fun locations final hlength hlands => nomatch hcomplete hreturn hlength hlands
  · obtain ⟨answer, rest, rfl, hrest, hanswer, honly⟩ := hyielded.eq_cons
    obtain ⟨locations, hlength, hlands, hhop, rfl⟩ := redirects_sound hloop hserver' rfl
    rw [Nat.zero_add] at hhop
    subst hhop
    have hclosed := hbalanced.closed locations.length
    have honce := hbalanced.once locations.length
    have hreleased := hbalanced.released locations.length
    simp only [held, if_true] at hclosed
    refine ⟨?_, hbalanced.yielded hyielded, fun response answer' hmem => ?_, fun hreturn => ⟨?_, ?_⟩,
      fun hnone => ?_⟩
    · rw [List.countP_append, List.countP_cons, hrest]
      exact hsent
    · obtain ⟨rfl, rfl⟩ := eq_of_mem_yield hquiet honly hmem
      exact ⟨before, rest, locations, final, rfl, by dsimp only; omega, by dsimp only; omega,
        Nat.le_of_lt_succ hlength, hlands, rfl⟩
    · intro response answer' hmem
      obtain ⟨rfl, rfl⟩ := eq_of_mem_yield hquiet honly hmem
      exact hanswer (List.forall_mem_append.mp hreturn).2
    · intro locations' final' hlength' hlands'
      have hend := hcomplete (List.forall_mem_append.mp hreturn).1 hlength' hlands'
      simp only [Except.ok.injEq, Prod.mk.injEq, Option.some.injEq] at hend
      obtain ⟨⟨hlen, rfl⟩, hurl⟩ := hend
      exact ⟨answer, by simp [hlen, hurl]⟩
    · exact absurd (by simp) (hnone _ answer)

end Urllib3StreamingHttpClient

section Sample

open Urllib3StreamingHttpClient

/-- A redirect to another path, and then a response. -/
def sampleServer (hop : Nat) (_ : String) : Except Exc PoolResponse :=
  if hop = 0 then .ok ⟨302, [], some "/MetObjects.csv"⟩ else .ok ⟨200, [], none⟩

def sampleYielded : StreamingResponse := ⟨200, [], "museum/MetObjects.csv", 1⟩

/-- The redirect is followed, and the consumer of the response raises. -/
def sampleRedirected : PoolHistory :=
  [⟨.request 0 "museum" [], sampleServer 0 "museum"⟩, ⟨.close 0, .ok ()⟩, ⟨.releaseConn 0, .ok ()⟩,
    ⟨.request 1 "museum/MetObjects.csv" [], sampleServer 1 "museum/MetObjects.csv"⟩,
    ⟨.yield sampleYielded, .error (.downloadSizeLimitError "too large")⟩, ⟨.close 1, .ok ()⟩,
    ⟨.releaseConn 1, .ok ()⟩]

theorem sample_redirected :
    (openUrl (· ++ ·) none 1 "museum").Trace sampleRedirected
      (.error (.downloadSizeLimitError "too large")) :=
  .call (.call (.call (.call (.call (.call (.call ⟨rfl, rfl⟩))))))

theorem open_redirects_sample : Released sampleRedirected ∧
    ∃ before after locations final, sampleRedirected =
        before ++ ⟨.yield sampleYielded, .error (.downloadSizeLimitError "too large")⟩ :: after ∧
      before.countP (closes 1) = 0 ∧ before.countP (releases 1) = 0 ∧
      Lands (· ++ ·) sampleServer 0 "museum" locations final ∧ locations.length = 1 := by
  have hserver : Serves sampleServer sampleRedirected := by
    rintro hop url headers answer hmem
    rcases (by simpa [sampleRedirected] using hmem) with
      ⟨⟨rfl, rfl, rfl⟩, rfl⟩ | ⟨⟨rfl, rfl, rfl⟩, rfl⟩
    · rfl
    · rfl
  obtain ⟨-, hreleased, hyields, -⟩ := open_redirects sample_redirected hserver
  obtain ⟨before, after, locations, final, hhistory, hclosed, hfree, -, hlands, hyielded⟩ :=
    hyields sampleYielded (.error (.downloadSizeLimitError "too large")) (by simp [sampleRedirected])
  refine ⟨hreleased, before, after, locations, final, hhistory, hclosed, hfree, hlands, ?_⟩
  exact (congrArg StreamingResponse.body hyielded).symm

end Sample

end EvidenceCartographer.Infrastructure
