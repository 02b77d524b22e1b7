import Lodger.Server.Safe

namespace Lodger.Server

open Lodger.Lib Lodger.Db Lodger.Http Lodger.Libvirt Lodger.Audit
open ClientIp (header)
open Prog Validate Xml

variable [Formats] {state : AppState} {req : Request} {w : Watch} {session : Session}

section Guard

theorem keeps_lookup (h : w.Calm) {next : Option (Option Session) → M Response}
    (hfailed : Keeps state req (next none) w)
    (hout : ∀ t : Watch, t.Calm → Keeps state req (next (some none)) t)
    (hin : ∀ (key : Key) (session : Session) (t : Watch), ownKey req key → t.Ready session →
      Keeps state req (next (some (some session))) t) :
    Keeps state req (lookup req >>= next) w := by
  unfold lookup
  cases hkey : sessionKey Formats.sha256 req.headers with
  | none => exact hout w h
  | some key =>
      refine ⟨h.ok hkey, fun r hr => ?_⟩
      cases r with
      | error e => exact ends_dropped hr w
      | ok reply =>
          cases reply with
          | error e => exact hfailed
          | ok found =>
              cases found with
              | none => exact hout _ ⟨h.last, h.due⟩
              | some session => exact hin key session _ hkey ⟨⟨h.last, h.due⟩, rfl⟩

theorem keeps_requireSession (h : w.Calm) {next : Session → M Response}
    (hnext : ∀ (key : Key) (session : Session) (t : Watch), ownKey req key → t.Ready session →
      (isSafe req.method = false → csrfMatches req.headers session = true) →
      Keeps state req (next session) t) :
    Keeps state req (requireSession req next) w := by
  refine keeps_lookup h (keeps_answer h _ rfl) (fun t ht => keeps_answer ht _ rfl) ?_
  intro key session t hkey ht
  dsimp only
  split
  · exact keeps_answer ht.toCalm _ rfl
  · refine hnext key session t hkey ht fun hsafe => ?_
    simp_all

theorem keeps_expect {α : Type} {message : String} {value : Option α} {a : α}
    {next : α → M Response} (hvalue : value = some a) (hnext : Keeps state req (next a) w) :
    Keeps state req (expect message value >>= next) w := by
  rw [hvalue]
  exact hnext

theorem keeps_logout (h : w.Armed state req session) {key : Key} (hkey : ownKey req key) :
    Keeps state req (logout req) w := by
  obtain ⟨token, htoken, -⟩ := Option.map_eq_some_iff.mp hkey
  have hown : ownKey req (Formats.sha256 token) := by
    rw [ownKey, sessionKey, htoken]
    rfl
  refine keeps_expect htoken (keeps_ask (h.toCalm.ok ⟨h.guarded, hown⟩) fun reply => ?_)
  cases reply with
  | error e => exact keeps_answer h.toCalm _ rfl
  | ok _ => exact keeps_answer h.toCalm _ rfl

theorem keeps_issueTicket (h : w.Armed state req session) {key : Key} (hkey : ownKey req key) :
    Keeps state req (issueTicket req) w := by
  refine keeps_expect hkey (keeps_ask (h.toCalm.ok ⟨h.guarded, hkey, rfl⟩) fun reply => ?_)
  cases reply with
  | error e => exact keeps_answer h.toCalm _ rfl
  | ok ticket =>
      cases ticket with
      | none => exact keeps_answer h.toCalm _ rfl
      | some ticket => exact keeps_answer h.toCalm _ rfl

theorem keeps_openSocket (h : w.Calm) {next : Key → M Response}
    (hnext : ∀ (key : Key) (t : Watch), t.Calm → t.redeemed = some key →
      Keeps state req (next key) t) :
    Keeps state req (openSocket req next) w := by
  refine keeps_lookup h (keeps_answer h _ rfl) (fun t ht => keeps_answer ht _ rfl) ?_
  intro key session t hkey ht
  refine keeps_expect hkey (keeps_ask (ht.toCalm.ok ⟨ht.isSome, hkey, rfl⟩) fun redeemed => ?_)
  cases redeemed with
  | true => exact hnext key _ ⟨ht.last, ht.due⟩ rfl
  | false =>
      have hcalm : Watch.Calm { t with redeemed := none } := ⟨ht.last, ht.due⟩
      show Keeps state req (return error .forbidden _) _
      exact keeps_answer hcalm _ rfl

theorem keeps_withUpgrade (h : w.Calm) {next : M Response} (hnext : Keeps state req next w) :
    Keeps state req (withUpgrade req next) w := by
  unfold withUpgrade
  split
  · exact hnext
  · exact keeps_answer h _ rfl

omit [Formats] in
theorem ends_socket {key : Key} (hredeemed : w.redeemed = some key) {response : Response}
    (hsocket : response.body.socket = some key) (hdue : w.due = false)
    (hlast : ∀ d ∈ w.last, response.status ∈ d.statuses) : Ends w (.ok response) := by
  refine ⟨hdue, hlast, ?_⟩
  rw [hsocket]
  rintro _ ⟨⟩
  exact hredeemed

theorem keeps_events (h : w.Calm) : Keeps state req (events req) w := by
  refine keeps_withUpgrade h (keeps_openSocket h fun key t ht hredeemed => ?_)
  refine ends_socket hredeemed rfl ht.due ?_
  rw [ht.last]
  simp

theorem keeps_vnc (h : w.Calm) (id : Uuid) : Keeps state req (vnc req id) w := by
  refine keeps_withUpgrade h (keeps_openSocket h fun key t ht hredeemed => ?_)
  refine keeps_ask (ht.ok trivial) fun connected => ?_
  cases connected with
  | false => exact keeps_answer ht _ rfl
  | true =>
      have hsome : t.redeemed.isSome := by rw [hredeemed]; rfl
      refine keeps_ask (ht.ok ⟨hsome, ht.unfailed⟩) fun socket => ?_
      refine keeps_withReply (fun _ => rfl) (fun e => ?_) fun ready => ?_
      · constructor
        · split <;> rfl
        · show _ = if e.isNotFound then StatusCode.notFound else .conflict
          split <;> rfl
      · cases ready with
        | error e => exact keeps_listed rfl rfl (by simp [successes, error])
        | ok _ =>
            have hopened : (t.called ⟨.openVnc id, none⟩).redeemed = some key := hredeemed
            refine ends_socket hopened rfl rfl ?_
            rintro d ⟨⟩
            exact List.mem_cons_self

end Guard

section Routes

theorem keeps_handler (h : w.Calm) {handle : Handler} (hmay : w.mayHandle state req handle) :
    Keeps state req (handler handle) w :=
  keeps_ask (h.ok hmay) fun _ => keeps_answer h _ rfl

theorem keeps_read (h : w.Ready session) (name : String) :
    Keeps state req (handler (.read name)) w :=
  keeps_handler h.toCalm h.isSome

variable [Xmltree] [Emitter] [Ipnet]

-- Every handler behind the guard keeps to the watch. Those that are no GET need the token.
theorem keeps_protected (h : w.Ready session) {key : Key} (hkey : ownKey req key) :
    ∀ route ∈ protectedRoutes, (route.method ≠ .get → w.Armed state req session) →
      Keeps state req (route.handle state req session) w := by
  simp only [protectedRoutes, List.forall_mem_cons, List.not_mem_nil, false_implies,
    implies_true, and_true, ne_eq, not_true_eq_false, reduceCtorEq, not_false_eq_true,
    forall_const]
  have hcalm := h.toCalm
  refine ⟨keeps_read h _, keeps_read h _, keeps_read h _, ?_, ?_, ?_, keeps_read h _,
    keeps_createPool, keeps_read h _, ?_, ?_, ?_, ?_, ?_, keeps_read h _, keeps_createNetwork,
    keeps_read h _, ?_, ?_, keeps_read h _, ?_, ?_, ?_, keeps_read h _, ?_, ?_, ?_⟩
  · exact fun harmed => keeps_withId hcalm (keeps_delete harmed)
  · exact fun harmed => keeps_withId hcalm (keeps_update harmed)
  · exact fun harmed => keeps_withId hcalm fun id => keeps_withText hcalm (keeps_run harmed id)
  · exact fun harmed => keeps_withId hcalm (keeps_changePool harmed)
  · exact fun harmed => keeps_withId hcalm (keeps_removePool harmed)
  · exact keeps_withId hcalm (keeps_listVolumes h)
  · exact fun harmed => keeps_withId hcalm (keeps_createVolume harmed)
  · exact fun harmed =>
      keeps_withId hcalm fun id => keeps_withText hcalm (keeps_removeVolume harmed id)
  · exact fun harmed => keeps_withId hcalm (keeps_changeNetwork harmed)
  · exact fun harmed => keeps_withId hcalm (keeps_removeNetwork harmed)
  · exact keeps_handler hcalm h.isSome
  · exact fun harmed => keeps_logout harmed hkey
  · exact fun harmed => keeps_issueTicket harmed hkey
  · exact fun harmed => keeps_handler hcalm harmed.guarded
  · exact fun harmed => keeps_handler hcalm harmed.guarded
  · exact fun harmed => keeps_handler hcalm harmed.guarded

omit [Xmltree] [Emitter] [Ipnet] in
theorem keeps_public (h : w.Calm) :
    ∀ route ∈ publicRoutes, (route.method ≠ .get → OwnPage state req) →
      Keeps state req (route.handle req) w := by
  simp only [publicRoutes, List.forall_mem_cons, List.not_mem_nil, false_implies,
    implies_true, and_true, ne_eq, not_true_eq_false, reduceCtorEq, not_false_eq_true,
    forall_const]
  refine ⟨keeps_handler h trivial, keeps_handler h trivial, ?_, ?_, keeps_events h, ?_⟩
  · exact fun hpage => keeps_handler h hpage
  · exact fun hpage => keeps_handler h hpage
  · exact keeps_withId h (keeps_vnc h)

omit [Formats] [Xmltree] [Emitter] [Ipnet] in
-- A request that a route of another method than GET serves is not safe.
theorem isSafe_of_servedAs {method : Method} (h : method = servedAs req.method)
    (hget : method ≠ .get) : isSafe req.method = false := by
  rw [h, servedAs] at hget
  rw [isSafe]
  grind

omit [Xmltree] [Emitter] [Ipnet] in
theorem keeps_fallback (h : w.Calm) : Keeps state req (fallback req) w := by
  unfold fallback
  split
  · exact keeps_answer h _ rfl
  · split
    · exact keeps_answer h _ rfl
    · exact keeps_answer h _ rfl

theorem keeps_otherMethod (h : w.Calm) : Keeps state req (otherMethod req) w := by
  unfold otherMethod
  split
  · exact keeps_requireSession h fun _ _ _ _ ht _ => keeps_answer ht.toCalm _ rfl
  · split
    · exact keeps_answer h _ rfl
    · exact keeps_fallback h

theorem keeps_dispatch (h : w.Calm) (hpage : isSafe req.method = false → OwnPage state req) :
    Keeps state req (dispatch state req) w := by
  unfold dispatch
  split
  · rename_i route hroute
    have hmethod := List.find?_some hroute
    simp only [Bool.and_eq_true, decide_eq_true_eq] at hmethod
    refine keeps_public h route (List.mem_of_find?_eq_some hroute) fun hget => ?_
    exact hpage (isSafe_of_servedAs hmethod.2 hget)
  · split
    · rename_i route hroute
      have hmethod := List.find?_some hroute
      simp only [Bool.and_eq_true, decide_eq_true_eq] at hmethod
      refine keeps_requireSession h fun key session t hkey ht hcsrf => ?_
      refine keeps_protected ht hkey route (List.mem_of_find?_eq_some hroute) fun hget => ?_
      have hsafe := isSafe_of_servedAs hmethod.2 hget
      exact ⟨ht, ⟨hpage hsafe, session, ht.session, hcsrf hsafe⟩⟩
    · exact keeps_otherMethod h

-- Every request keeps to the watch, whatever the replies to its calls are.
theorem serve_keeps (state : AppState) (req : Request) : Keeps state req (serve state req) {} := by
  have hcalm : Watch.Calm {} := ⟨rfl, rfl⟩
  unfold serve requireSameOrigin
  split
  · rename_i hfrom
    refine keeps_dispatch hcalm fun hsafe => ⟨hsafe, ?_⟩
    rw [hsafe] at hfrom
    exact hfrom
  · exact keeps_answer hcalm _ rfl

end Routes

end Lodger.Server
