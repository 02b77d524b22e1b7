import Lodger.Server.Watch
import Lodger.Validate.Lemmas

namespace Lodger.Server

open Lodger.Lib Lodger.Db Lodger.Http Lodger.Libvirt Lodger.Audit
open Lodger.Cache (Inventory Vm Pool Net)
open ClientIp (header)
open Creates (CreatePool CreateNetwork newPool newNetwork)
open Jobs (Op Power)
open Prog Validate Xml

-- What is left of a request keeps to the watch.
abbrev Keeps [Formats] (state : AppState) (req : Request) (p : M Response) (w : Watch) : Prop :=
  p.Safe (watch state req) (fun r t => Ends t r) w

-- No libvirt call is behind.
structure Watch.Calm (w : Watch) : Prop where
  last : w.last = none
  due : w.due = false

-- What a handler behind the guard starts from.
structure Watch.Ready (w : Watch) (session : Session) : Prop extends w.Calm where
  session : w.session = some session

variable {state : AppState} {req : Request} {w : Watch} {session : Session}

theorem Watch.Calm.inventory (h : w.Calm) (inv : Option Inventory) :
    Watch.Calm { w with inventory := inv } := ⟨h.last, h.due⟩

theorem ends_plain {response : Response} (hplain : response.body.socket = none)
    (hdue : w.due = false) (hlast : ∀ d ∈ w.last, response.status ∈ d.statuses) :
    Ends w (.ok response) := by
  refine ⟨hdue, hlast, ?_⟩
  rw [hplain]
  simp

theorem Watch.Calm.ends (h : w.Calm) (response : Response)
    (hplain : response.body.socket = none) : Ends w (.ok response) := by
  refine ends_plain hplain h.due ?_
  rw [h.last]
  simp

theorem Watch.Calm.unfailed (h : w.Calm) : w.Unfailed := by
  rw [Watch.Unfailed, h.last]
  simp

theorem Watch.Ready.isSome (h : w.Ready session) : w.session.isSome := by
  rw [h.session]
  rfl

theorem Watch.Ready.inventory (h : w.Ready session) (inv : Option Inventory) :
    Watch.Ready { w with inventory := inv } session := ⟨h.toCalm.inventory inv, h.session⟩

section Shared

variable [Formats]

theorem ends_dropped {e : Stop} {call : Call} (h : (watch state req).may call (.error e))
    (t : Watch) : Ends t (.error e) := by
  cases e with
  | dropped => rfl
  | panic message => exact absurd rfl (h message)

theorem keeps_answer (h : w.Calm) (response : Response)
    (hplain : response.body.socket = none) : Keeps state req (return response) w :=
  h.ends response hplain

theorem keeps_ask {call : Call} {next : call.Result → M Response} (hok : w.ok state req call)
    (hnext : ∀ a, Keeps state req (next a) (w.after call (.ok a))) :
    Keeps state req (ask call >>= next) w :=
  safe_ask_bind.mpr ⟨hok, fun a _ => hnext a, fun _ he => ends_dropped he _⟩

theorem Watch.Calm.ok {call : Call} (h : w.Calm) (hcall : w.mayAsk state req call) :
    w.ok state req call := by
  rw [Watch.ok, h.due]
  exact hcall

theorem keeps_found {α : Type} (h : w.Calm) {message : String} {next : α → M Response}
    {object : Option α} (hnext : ∀ a, object = some a → Keeps state req (next a) w) :
    Keeps state req (found message next object) w := by
  cases object with
  | some a => exact hnext a rfl
  | none => exact keeps_answer h _ rfl

theorem keeps_withVm (h : w.Calm) {id : Uuid} {next : Vm → M Response}
    (hnext : ∀ inv vm, inv.vms.lookup id = some vm →
      Keeps state req (next vm) { w with inventory := some inv }) :
    Keeps state req (withVm id next) w :=
  keeps_ask (h.ok trivial) fun inv => keeps_found (h.inventory inv) (hnext inv)

theorem keeps_withPool (h : w.Calm) {id : Uuid} {next : Pool → M Response}
    (hnext : ∀ inv pool, inv.pools.lookup id = some pool →
      Keeps state req (next pool) { w with inventory := some inv }) :
    Keeps state req (withPool id next) w :=
  keeps_ask (h.ok trivial) fun inv => keeps_found (h.inventory inv) (hnext inv)

theorem keeps_withNetwork (h : w.Calm) {id : Uuid} {next : Net → M Response}
    (hnext : ∀ inv net, inv.networks.lookup id = some net →
      Keeps state req (next net) { w with inventory := some inv }) :
    Keeps state req (withNetwork id next) w :=
  keeps_ask (h.ok trivial) fun inv => keeps_found (h.inventory inv) (hnext inv)

theorem keeps_withVirt (h : w.Calm) {next : M Response} (hnext : Keeps state req next w) :
    Keeps state req (withVirt next) w := by
  refine keeps_ask (h.ok trivial) fun connected => ?_
  cases connected with
  | true => exact hnext
  | false => exact keeps_answer h _ rfl

theorem keeps_withBody {α : Type} (h : w.Calm) {body : Except String α} {next : α → M Response}
    (hnext : ∀ a, body = .ok a → Keeps state req (next a) w) :
    Keeps state req (withBody body next) w := by
  cases body with
  | ok a => exact hnext a rfl
  | error e => exact keeps_answer h _ rfl

-- A read of libvirt's lists. Its failure ends the request.
theorem keeps_withReply {α : Type} {call : Call} {reply : Except CallError α}
    {refuse : CallError → Response} {next : α → M Response}
    (hrow : ∀ failure, Asked.hasRow ⟨call, failure⟩ = false)
    (hrefuse : ∀ e, (refuse e).body.socket = none ∧ (refuse e).status = failedStatus call e)
    (hnext : ∀ a, Keeps state req (next a) (w.called ⟨call, none⟩)) :
    Keeps state req (withReply reply refuse next) (w.called ⟨call, failureIn reply⟩) := by
  cases reply with
  | ok a => exact hnext a
  | error e =>
      refine ends_plain (hrefuse e).1 (hrow (some e)) ?_
      rintro d ⟨⟩
      exact List.mem_singleton.mpr (hrefuse e).2

-- The request ends after a list.
theorem keeps_listed {call : Call} {response : Response}
    (hrow : Asked.hasRow ⟨call, none⟩ = false) (hplain : response.body.socket = none)
    (hstatus : response.status ∈ successes call) :
    Keeps state req (return response) (w.called ⟨call, none⟩) := by
  refine ends_plain hplain hrow ?_
  rintro d ⟨⟩
  exact hstatus

theorem keeps_confirmed (h : w.Calm) {confirm : Option String} {name message : String}
    {next : M Response} (hnext : confirm = some name → Keeps state req next w) :
    Keeps state req (confirmed confirm name message next) w := by
  unfold confirmed
  split
  · exact hnext ‹_›
  · exact keeps_answer h _ rfl

theorem keeps_changes (h : w.Calm) {change : Change} {next : M Response}
    (hnext : Keeps state req next w) : Keeps state req (changes change next) w := by
  unfold changes
  split
  · exact keeps_answer h _ rfl
  · exact hnext

theorem keeps_withId (h : w.Calm) {parts : List String} {i : Nat} {next : Uuid → M Response}
    (hnext : ∀ id, Keeps state req (next id) w) : Keeps state req (withId parts i next) w := by
  unfold withId
  split
  · exact hnext _
  · exact keeps_answer h _ rfl

theorem keeps_withText (h : w.Calm) {parts : List String} {i : Nat} {next : String → M Response}
    (hnext : ∀ text, Keeps state req (next text) w) :
    Keeps state req (withText parts i next) w := by
  unfold withText
  split
  · exact hnext _
  · exact keeps_answer h _ rfl

end Shared

section Rows

-- The object that a handler has found gives its row the target.
theorem targets_found {α : Type} {object : Option α} {a : α} {text : α → String}
    (h : object = some a) : (object.bind fun x => some (text x)) = some (text a) := by
  rw [h]
  rfl

section Failure

variable {reason missing message : String} {code : StatusCode} {e : CallError}

theorem failure_status :
    (if reason = missing then error code message else errorAnswer code e).status = code := by
  split <;> rfl

theorem failure_plain :
    (if reason = missing then error code message else errorAnswer code e).body.socket = none := by
  split <;> rfl

end Failure

variable [Formats]

-- The rows for every reply to a call.
structure Fits (req : Request) (a : Actor) (inv : Option Inventory) (call : Call)
    (row : Entry → Entry) (event : String) : Prop where
  ok : Describes req a inv ⟨call, none⟩ (row (.ok event))
  failed : ∀ e, Describes req a inv ⟨call, some e⟩ (row (.failed event (failureOf call e).1))

theorem fits (req : Request) (a : Actor) {inv : Option Inventory} {call : Call}
    {event name : String} {action : Option String} (hevent : event = eventOf call)
    (htarget : targetOf req inv call = some name) (haction : action = actionOf req call) :
    Fits req a inv call
      (fun entry => ((a.row entry).targeting (family call).kind name).acting action) event := by
  constructor
  · exact ⟨hevent, rfl, rfl, rfl, ⟨name, htarget, rfl⟩, rfl, rfl, haction, rfl, rfl⟩
  · intro e
    exact ⟨hevent, rfl, rfl, rfl, ⟨name, htarget, rfl⟩, rfl, rfl, haction, rfl, rfl⟩

-- Once the row is there, the answer has the status of the call.
theorem keeps_told {call : Call} {failure : Option CallError} {entry : Entry} {response : Response}
    (hrow : Asked.hasRow ⟨call, failure⟩ = true) (hsession : w.session = some session)
    (hentry : Describes req (actor state req session) w.inventory ⟨call, failure⟩ entry)
    (hstatus : response.status ∈ Asked.statuses ⟨call, failure⟩)
    (hplain : response.body.socket = none) :
    Keeps state req (do let () ← ask (.audit entry); return response)
      (w.called ⟨call, failure⟩) := by
  refine keeps_ask ?_ fun _ => ends_plain hplain rfl ?_
  · rw [Watch.ok, Watch.called, hrow, if_pos rfl]
    exact ⟨entry, session, ⟨call, failure⟩, rfl, hsession, rfl, hentry⟩
  · rintro d ⟨⟩
    exact hstatus

theorem keeps_vmAnswer {α : Type} {call : Call} {row : Entry → Entry} {event : String}
    {success : α → Response} (hrow : ∀ failure, Asked.hasRow ⟨call, failure⟩ = true)
    (hsession : w.session = some session)
    (hfits : Fits req (actor state req session) w.inventory call row event)
    (hfailure : ∀ e, failureOf call e =
      if e.isNotFound then ("no_such_vm", .notFound)
      else if e.isInvalidOperation then ("wrong_state", .conflict)
      else ("libvirt_error", .badGateway))
    (hstatus : ∀ e, failedStatus call e = (failureOf call e).2)
    (hsuccess : ∀ a, (success a).status ∈ successes call)
    (hplain : ∀ a, (success a).body.socket = none) (reply : Except CallError α) :
    Keeps state req (vmAnswer row event success reply) (w.called ⟨call, failureIn reply⟩) := by
  cases reply with
  | ok a => exact keeps_told (hrow none) hsession hfits.ok (hsuccess a) (hplain a)
  | error e =>
      have hentry := hfits.failed e
      have hcode := hstatus e
      rw [hfailure] at hentry hcode
      refine keeps_told (hrow (some e)) hsession hentry ?_ failure_plain
      exact List.mem_singleton.mpr (failure_status.trans hcode.symm)

end Rows

section Actions

-- What a handler that changes something starts from.
structure Watch.Armed (state : AppState) (req : Request) (w : Watch) (session : Session) : Prop
    extends w.Ready session where
  guarded : Guarded state req w.session

theorem Watch.Armed.inventory (h : w.Armed state req session) (inv : Option Inventory) :
    Watch.Armed state req { w with inventory := inv } session :=
  ⟨h.toReady.inventory inv, h.guarded⟩

variable [Formats]

theorem Watch.Armed.mayCall {call : Call} (h : w.Armed state req session)
    (hconfirmed : Confirmed req w.inventory call) : w.MayCall state req call :=
  ⟨h.guarded, h.toCalm.unfailed, hconfirmed⟩

theorem keeps_mayPower (h : w.Calm) {action : Power} {confirm : Confirm} {vm : Vm}
    {next : M Response}
    (hnext : (action = .forceOff → confirm.confirm = some vm.name) → Keeps state req next w) :
    Keeps state req (mayPower action confirm vm next) w := by
  unfold mayPower
  split
  · exact keeps_confirmed h fun hname => hnext fun _ => hname
  · exact hnext fun hoff => absurd hoff ‹_›

theorem keeps_run (h : w.Armed state req session) (id : Uuid) (action : String) :
    Keeps state req (Actions.run state req session id action) w := by
  unfold Actions.run
  cases Power.parse action with
  | none => exact keeps_answer h.toCalm _ rfl
  | some action =>
      refine keeps_withBody h.toCalm fun confirm hbody => ?_
      refine keeps_withVm h.toCalm fun inv vm hvm => ?_
      replace h := h.inventory (some inv)
      refine keeps_mayPower h.toCalm fun hname => ?_
      refine keeps_withVirt h.toCalm ?_
      have hconfirmed : Confirmed req (some inv) (.job (.power id action)) := by
        cases action with
        | forceOff =>
            refine ⟨inv, vm, rfl, hvm, ?_⟩
            rw [hbody, ← hname rfl]
            rfl
        | _ => trivial
      refine keeps_ask (h.toCalm.ok (h.mayCall hconfirmed)) ?_
      have htarget : targetOf req (some inv) (.job (.power id action)) = some vm.name :=
        targets_found hvm
      exact keeps_vmAnswer (fun _ => rfl) h.session (fits req _ rfl htarget rfl) (fun _ => rfl)
        (fun _ => rfl) (fun _ => List.mem_singleton_self _) (fun _ => rfl)

theorem keeps_delete (h : w.Armed state req session) (id : Uuid) :
    Keeps state req (Actions.delete state req session id) w := by
  refine keeps_withBody h.toCalm fun request hbody => ?_
  refine keeps_withVm h.toCalm fun inv vm hvm => ?_
  replace h := h.inventory (some inv)
  refine keeps_confirmed h.toCalm fun hname => ?_
  refine keeps_withVirt h.toCalm ?_
  have hconfirmed : Confirmed req (some inv) (.deleteVm id request.removeVolumes) := by
    refine ⟨inv, vm, rfl, hvm, ?_⟩
    rw [hbody, ← hname]
    rfl
  have htarget : targetOf req (some inv) (.deleteVm id request.removeVolumes) = some vm.name :=
    targets_found hvm
  refine keeps_ask (h.toCalm.ok (h.mayCall hconfirmed)) ?_
  exact keeps_vmAnswer (fun _ => rfl) h.session (fits req _ rfl htarget rfl) (fun _ => rfl)
    (fun _ => rfl) (fun _ => List.mem_singleton_self _) (fun _ => rfl)

theorem keeps_update (h : w.Armed state req session) (id : Uuid) :
    Keeps state req (Actions.update state req session id) w := by
  refine keeps_withBody h.toCalm fun settings _ => ?_
  refine keeps_withVm h.toCalm fun inv vm hvm => ?_
  replace h := h.inventory (some inv)
  refine keeps_withVirt h.toCalm ?_
  have htarget : targetOf req (some inv) (.job (.setAutostart id settings.autostart)) =
      some vm.name :=
    targets_found hvm
  refine keeps_ask (h.toCalm.ok (h.mayCall trivial)) ?_
  exact keeps_vmAnswer (fun _ => rfl) h.session (fits req _ rfl htarget rfl) (fun _ => rfl)
    (fun _ => rfl) (fun _ => List.mem_singleton_self _) (fun _ => rfl)

end Actions

-- The calls after which a request goes on.
section Parts

variable {inv : Option Inventory} {code : StatusCode}

-- A handler that changes something may make its next call.
structure Watch.Open (state : AppState) (req : Request) (session : Session)
    (inv : Option Inventory) (w : Watch) : Prop where
  guarded : Guarded state req w.session
  session : w.session = some session
  inventory : w.inventory = inv
  due : w.due = false
  unfailed : w.Unfailed

-- It may also end here.
structure Watch.Between (state : AppState) (req : Request) (session : Session)
    (inv : Option Inventory) (code : StatusCode) (w : Watch) : Prop
    extends w.Open state req session inv where
  statuses : ∀ d ∈ w.last, code ∈ d.statuses

theorem Watch.Armed.open (h : w.Armed state req session) :
    w.Open state req session w.inventory :=
  ⟨h.guarded, h.session, rfl, h.due, h.toCalm.unfailed⟩

theorem Watch.Armed.between (h : w.Armed state req session) :
    w.Between state req session w.inventory code := by
  refine ⟨h.open, ?_⟩
  rw [h.last]
  simp

-- After a list that has no row.
theorem Watch.Open.listed (h : w.Open state req session inv) {call : Call}
    (hrow : Asked.hasRow ⟨call, none⟩ = false) :
    (w.called ⟨call, none⟩).Open state req session inv := by
  refine ⟨h.guarded, h.session, h.inventory, hrow, ?_⟩
  rintro d ⟨⟩
  rfl

-- A part either answers, or leaves the request to the next part.
def Part (state : AppState) (req : Request) (session : Session) (inv : Option Inventory)
    (code : StatusCode) (r : Except Stop (Option Response)) (t : Watch) : Prop :=
  Outcome (fun refusal => match refusal with
    | some response => Ends t (.ok response)
    | none => t.Between state req session inv code) (· = .dropped) r

theorem failureOf_eq {fam : Family} (hfam : fam ≠ .vm) {call : Call}
    (hcreate : ∀ op, call ≠ .create op) (hfamily : family call = fam) (e : CallError) :
    failureOf call e =
      if e.isNotFound then (fam.missing, .notFound)
      else if e.isInUse then ("in_use", .conflict)
      else if e.isInvalidOperation then ("wrong_state", .conflict)
      else ("libvirt_error", .badGateway) := by
  cases call with
  | create op => exact absurd rfl (hcreate op)
  | _ => simp [failureOf, hfamily, hfam]

variable [Formats]

theorem Watch.Open.mayCall {call : Call} (h : w.Open state req session inv)
    (hconfirmed : Confirmed req inv call) : w.MayCall state req call :=
  ⟨h.guarded, h.unfailed, h.inventory ▸ hconfirmed⟩

theorem Watch.Open.ok {call : Call} (h : w.Open state req session inv)
    (hcall : w.mayAsk state req call) : w.ok state req call := by
  rw [Watch.ok, h.due]
  exact hcall

theorem Watch.Open.ok_audit (h : w.Open state req session inv) {d : Asked} {entry : Entry}
    (hrow : d.hasRow = true) (hentry : Describes req (actor state req session) inv d entry) :
    (w.called d).ok state req (.audit entry) := by
  rw [Watch.ok, Watch.called, hrow, if_pos rfl]
  exact ⟨entry, session, d, rfl, h.session, rfl, h.inventory ▸ hentry⟩

theorem part_failed (fam : Family) (h : w.Open state req session inv) {call : Call} {e : CallError}
    {missing : NotFound} {row : Entry → Entry} {event : String} {action : Option String}
    (hrow : Asked.hasRow ⟨call, some e⟩ = true)
    (hfits : Fits req (actor state req session) inv call (fun entry => row (entry.acting action))
      event)
    (hcreate : ∀ op, call ≠ .create op) (hfam : fam ≠ .vm) (hfamily : family call = fam)
    (hmissing : fam.missing = missing.reason)
    (hstatus : failedStatus call e = (failureOf call e).2) :
    (auditedAnswer missing row event action (.error e)).Safe (watch state req)
      (Part state req session inv code) (w.called ⟨call, some e⟩) := by
  have hentry := hfits.failed e
  rw [failureOf_eq hfam hcreate hfamily, hmissing] at hentry hstatus
  refine safe_ask_bind.mpr ⟨h.ok_audit hrow hentry, fun _ _ => ends_plain failure_plain rfl ?_,
    fun e' he => ?_⟩
  · rintro d ⟨⟩
    exact List.mem_singleton.mpr (failure_status.trans hstatus.symm)
  · exact ends_dropped he (w.called ⟨call, none⟩)

theorem part_job (fam : Family) (h : w.Open state req session inv) {op : Op} {missing : NotFound}
    {row : Entry → Entry} {event : String} {action : Option String}
    (hconfirmed : Confirmed req inv (.job op))
    (hfits : Fits req (actor state req session) inv (.job op)
      (fun entry => row (entry.acting action)) event)
    (hfam : fam ≠ .vm) (hfamily : opFamily op = fam) (hmissing : fam.missing = missing.reason)
    (hsuccess : successes (.job op) = [code]) :
    (audited missing row event action (ask (.job op))).Safe (watch state req)
      (Part state req session inv code) w := by
  refine safe_ask_bind.mpr ⟨h.ok (h.mayCall hconfirmed), fun reply _ => ?_, fun e he => ?_⟩
  · cases reply with
    | error e => exact part_failed fam h rfl hfits (by simp) hfam hfamily hmissing rfl
    | ok a =>
        have hdone : (w.called ⟨.job op, none⟩).ok state req _ := h.ok_audit rfl hfits.ok
        refine safe_ask_bind.mpr ⟨hdone, fun _ _ => ?_, fun e he => ?_⟩
        · refine ⟨⟨h.guarded, h.session, h.inventory, rfl, ?_⟩, ?_⟩
          · rintro d ⟨⟩
            rfl
          · rintro d ⟨⟩
            show code ∈ successes (.job op)
            rw [hsuccess]
            exact List.mem_singleton_self code
        · exact ends_dropped he (w.called ⟨.job op, none⟩)
  · exact ends_dropped he w

theorem keeps_finish (session : Session) (inv : Option Inventory)
    {part : M (Option Response)} {success : Response}
    (hplain : success.body.socket = none)
    (h : part.Safe (watch state req) (Part state req session inv success.status) w) :
    Keeps state req (do return finish success (← part)) w := by
  refine safe_bind.mpr (h.imp fun r t hr => ?_)
  cases r with
  | error e => exact hr
  | ok refusal =>
      cases refusal with
      | some response => exact hr
      | none => exact ends_plain hplain hr.due hr.statuses

theorem keeps_bothParts (session : Session) (inv : Option Inventory)
    {first second : M (Option Response)}
    (hfirst : first.Safe (watch state req) (Part state req session inv .noContent) w)
    (hsecond : ∀ t : Watch, t.Between state req session inv .noContent →
      second.Safe (watch state req) (Part state req session inv .noContent) t) :
    Keeps state req (bothParts first second) w := by
  refine safe_bind.mpr (hfirst.imp fun r t hr => ?_)
  cases r with
  | error e => exact hr
  | ok refusal =>
      cases refusal with
      | some response => exact hr
      | none => exact keeps_finish session inv rfl (hsecond t hr)

end Parts

section Creates

theorem refused_plain (e : Creates.Refusal) : (refused e).body.socket = none := by
  cases e <;> rfl

theorem refused_status (e : Creates.Refusal) :
    (refused e).status ∈ [StatusCode.conflict, .unprocessableEntity] := by
  cases e <;> simp [refused, invalid]

-- What is new has the name of the body.
section Names

theorem requested_name {request : CreatePool} {name : Name} {pool : NewPool}
    (h : Creates.requested request name = .ok pool) : pool.name = name := by
  unfold Creates.requested at h
  split at h
  · split at h
    · cases h
    · obtain ⟨path, -, hpool⟩ := except_bind_eq_ok.mp (except_mapError_eq_ok.mp h)
      cases hpool
      rfl
  · split at h
    · cases h
    · cases h
    · obtain ⟨path, -, hpool⟩ := except_bind_eq_ok.mp (except_mapError_eq_ok.mp h)
      obtain ⟨host, -, hpool⟩ := except_bind_eq_ok.mp hpool
      obtain ⟨exported, -, hpool⟩ := except_bind_eq_ok.mp hpool
      cases hpool
      rfl

theorem newPool_name [Xmltree] {request : CreatePool} {existing : Creates.Rows} {pool : NewPool}
    (h : newPool request existing = .ok pool) : pool.name.asStr = request.name := by
  obtain ⟨name, hname, h⟩ := except_bind_eq_ok.mp h
  split at h
  · cases h
  · obtain ⟨built, hbuilt, h⟩ := except_bind_eq_ok.mp h
    obtain ⟨-, -, h⟩ := except_bind_eq_ok.mp h
    cases h
    rw [requested_name hbuilt]
    exact Name.parse_asStr (except_mapError_eq_ok.mp hname)

theorem requestedNetwork_name [Ipnet] {request : CreateNetwork} {name : Name}
    {hostBridges : List String} {network : NewNetwork}
    (h : Creates.requestedNetwork request name hostBridges = .ok network) : network.name = name := by
  unfold Creates.requestedNetwork at h
  split at h
  · split at h
    · cases h
    · obtain ⟨subnet, -, hnetwork⟩ := except_bind_eq_ok.mp (except_mapError_eq_ok.mp h)
      cases hnetwork
      rfl
  · split at h
    · cases h
    · obtain ⟨subnet, -, hnetwork⟩ := except_bind_eq_ok.mp (except_mapError_eq_ok.mp h)
      cases hnetwork
      rfl
  · split at h
    · cases h
    · obtain ⟨bridge, -, hnetwork⟩ := except_bind_eq_ok.mp (except_mapError_eq_ok.mp h)
      split at hnetwork
      · cases hnetwork
        rfl
      · cases hnetwork

theorem newNetwork_name [Xmltree] [Ipnet] {request : CreateNetwork} {existing : Creates.Rows}
    {hostBridges : List String} {network : NewNetwork}
    (h : newNetwork request existing hostBridges = .ok network) :
    network.name.asStr = request.name := by
  obtain ⟨name, hname, h⟩ := except_bind_eq_ok.mp h
  split at h
  · cases h
  · obtain ⟨built, hbuilt, h⟩ := except_bind_eq_ok.mp h
    obtain ⟨-, -, h⟩ := except_bind_eq_ok.mp h
    cases h
    rw [requestedNetwork_name hbuilt]
    exact Name.parse_asStr (except_mapError_eq_ok.mp hname)

theorem newVolume_name {request : CreateVolume} {volume : NewVolume}
    (h : newVolume request = .ok volume) : volume.name.asStr = request.name := by
  obtain ⟨name, hname, h⟩ := except_bind_eq_ok.mp h
  unfold NewVolume.new at h
  split at h
  · cases h
    exact Name.parse_asStr hname
  · cases h

end Names

theorem keeps_createAnswer [Formats] {inv : Option Inventory} (h : w.Open state req session inv)
    {op : Op} {row : Entry → Entry} {event : String}
    (hfits : Fits req (actor state req session) inv (.create op)
      (fun entry => row (entry.acting none)) event)
    (reply : Except CallError Uuid) :
    Keeps state req (createAnswer row event reply) (w.called ⟨.create op, failureIn reply⟩) := by
  obtain rfl := h.inventory
  cases reply with
  | ok id => exact keeps_told rfl h.session hfits.ok (List.mem_singleton_self _) rfl
  | error e => exact keeps_told rfl h.session (hfits.failed e) (List.mem_singleton_self _) rfl

end Creates

section Pools

variable [Formats]

theorem keeps_createPool [Xmltree] [Emitter] (h : w.Armed state req session) :
    Keeps state req (Pools.create state req session) w := by
  refine keeps_withBody h.toCalm fun request hbody => keeps_withVirt h.toCalm ?_
  refine keeps_ask (h.toCalm.ok ⟨h.isSome, h.toCalm.unfailed⟩) fun existing => ?_
  refine keeps_withReply (fun _ => rfl) (fun _ => ⟨rfl, rfl⟩) fun existing => ?_
  cases hpool : newPool request existing with
  | error e => exact keeps_listed rfl (refused_plain e) (refused_status e)
  | ok pool =>
      have hopen : (w.called ⟨.poolXmls, none⟩).Open state req session w.inventory :=
        h.open.listed rfl
      refine keeps_ask (hopen.ok (hopen.mayCall trivial)) ?_
      refine keeps_createAnswer hopen (fits req _ rfl ?_ rfl)
      rw [newPool_name hpool]
      exact targets_found (congrArg Except.toOption hbody)

theorem keeps_changePool (h : w.Armed state req session) (id : Uuid) :
    Keeps state req (Pools.change state req session id) w := by
  refine keeps_withBody h.toCalm fun change _ => keeps_changes h.toCalm ?_
  refine keeps_withPool h.toCalm fun inv pool hpool => ?_
  replace h := h.inventory (some inv)
  refine keeps_withVirt h.toCalm (keeps_bothParts session (some inv) ?_ fun t ht => ?_)
  · cases change.active with
    | none => exact h.between
    | some active =>
        have htarget : targetOf req (some inv) (.job (.setPoolActive id active)) = some pool.name :=
          targets_found hpool
        exact part_job .pool h.open trivial (fits req _ rfl htarget rfl) (by decide) rfl rfl rfl
  · cases change.autostart with
    | none => exact ht
    | some on =>
        have htarget : targetOf req (some inv) (.job (.setPoolAutostart id on)) = some pool.name :=
          targets_found hpool
        exact part_job .pool ht.toOpen trivial (fits req _ rfl htarget rfl) (by decide) rfl rfl rfl

theorem keeps_removePool [Xmltree] (h : w.Armed state req session) (id : Uuid) :
    Keeps state req (Pools.remove state req session id) w := by
  refine keeps_withBody h.toCalm fun request hbody => ?_
  refine keeps_withPool h.toCalm fun inv pool hpool => ?_
  replace h := h.inventory (some inv)
  refine keeps_confirmed h.toCalm fun hname => keeps_withVirt h.toCalm ?_
  refine keeps_finish session (some inv) rfl ?_
  have hconfirmed : ∃ i pool, some inv = some i ∧ i.pools.lookup id = some pool ∧
      (bodyOrDefault Formats.removePool {} req.body).map (·.confirm) = .ok (some pool.name) := by
    refine ⟨inv, pool, rfl, hpool, ?_⟩
    rw [hbody, ← hname]
    rfl
  have htarget : (inv.pools.lookup id).bind (fun pool : Pool => some pool.name) = some pool.name :=
    targets_found hpool
  -- The XML of the pool is read first, and a failure of this has a row, too.
  refine ⟨h.toCalm.ok (h.mayCall trivial), fun r hr => ?_⟩
  cases r with
  | error e => exact ends_dropped hr w
  | ok text =>
      cases text with
      | error e =>
          have haction : some (filesAction request.deleteFiles) = actionOf req (.poolXml id) := by
            rw [actionOf, hbody]
            rfl
          exact part_failed .pool h.open rfl (fits req _ rfl htarget haction) (by simp) (by decide)
            rfl rfl rfl
      | ok text =>
          exact part_job .pool (h.open.listed rfl) hconfirmed (fits req _ rfl htarget rfl)
            (by decide) rfl rfl rfl

end Pools

section Networks

variable [Formats]

theorem keeps_createNetwork [Xmltree] [Emitter] [Ipnet] (h : w.Armed state req session) :
    Keeps state req (Networks.create state req session) w := by
  refine keeps_withBody h.toCalm fun request hbody => keeps_withVirt h.toCalm ?_
  refine keeps_ask (h.toCalm.ok ⟨h.isSome, h.toCalm.unfailed⟩) fun existing => ?_
  refine keeps_withReply (fun _ => rfl) (fun _ => ⟨rfl, rfl⟩) fun existing => ?_
  have hopen : (w.called ⟨.networkXmls, none⟩).Open state req session w.inventory :=
    h.open.listed rfl
  refine keeps_ask (hopen.ok trivial) fun hostBridges => ?_
  cases hnetwork : newNetwork request existing hostBridges with
  | error e => exact keeps_listed rfl (refused_plain e) (refused_status e)
  | ok network =>
      refine keeps_ask (hopen.ok (hopen.mayCall trivial)) ?_
      refine keeps_createAnswer hopen (fits req _ rfl ?_ rfl)
      rw [newNetwork_name hnetwork]
      exact targets_found (congrArg Except.toOption hbody)

theorem keeps_changeNetwork (h : w.Armed state req session) (id : Uuid) :
    Keeps state req (Networks.change state req session id) w := by
  refine keeps_withBody h.toCalm fun change _ => keeps_changes h.toCalm ?_
  refine keeps_withNetwork h.toCalm fun inv net hnet => ?_
  replace h := h.inventory (some inv)
  refine keeps_withVirt h.toCalm (keeps_bothParts session (some inv) ?_ fun t ht => ?_)
  · cases change.active with
    | none => exact h.between
    | some active =>
        have htarget : targetOf req (some inv) (.job (.setNetworkActive id active)) =
            some net.name :=
          targets_found hnet
        exact part_job .network h.open trivial (fits req _ rfl htarget rfl) (by decide) rfl rfl rfl
  · cases change.autostart with
    | none => exact ht
    | some on =>
        have htarget : targetOf req (some inv) (.job (.setNetworkAutostart id on)) =
            some net.name :=
          targets_found hnet
        exact part_job .network ht.toOpen trivial (fits req _ rfl htarget rfl) (by decide) rfl rfl
          rfl

theorem keeps_removeNetwork (h : w.Armed state req session) (id : Uuid) :
    Keeps state req (Networks.remove state req session id) w := by
  refine keeps_withBody h.toCalm fun request hbody => ?_
  refine keeps_withNetwork h.toCalm fun inv net hnet => ?_
  replace h := h.inventory (some inv)
  refine keeps_confirmed h.toCalm fun hname => keeps_withVirt h.toCalm ?_
  have hconfirmed : Confirmed req (some inv) (.job (.deleteNetwork id)) := by
    refine ⟨inv, net, rfl, hnet, ?_⟩
    rw [hbody, ← hname]
    rfl
  refine keeps_finish session (some inv) rfl ?_
  have htarget : targetOf req (some inv) (.job (.deleteNetwork id)) = some net.name :=
    targets_found hnet
  exact part_job .network h.open hconfirmed (fits req _ rfl htarget rfl) (by decide) rfl rfl rfl

end Networks

section Volumes

theorem unlisted_plain (e : CallError) : (unlisted e).body.socket = none := by
  unfold unlisted
  repeat' split
  all_goals rfl

theorem unlisted_status (e : CallError) : (unlisted e).status =
    if e.isNotFound then .notFound else if e.isInvalidOperation then .conflict
      else .badGateway := by
  unfold unlisted
  repeat' split
  all_goals rfl

variable [Formats]

theorem keeps_listVolumes (h : w.Ready session) (id : Uuid) :
    Keeps state req (Volumes.list id) w := by
  refine keeps_withPool h.toCalm fun inv _ _ => ?_
  replace h := h.inventory (some inv)
  refine keeps_withVirt h.toCalm ?_
  refine keeps_ask (h.toCalm.ok ⟨h.isSome, h.toCalm.unfailed⟩) fun _ => ?_
  refine keeps_withReply (fun _ => rfl) (fun e => ⟨unlisted_plain e, unlisted_status e⟩) fun _ => ?_
  exact keeps_listed rfl rfl (List.mem_singleton_self _)

theorem keeps_createVolume [Emitter] (h : w.Armed state req session) (id : Uuid) :
    Keeps state req (Volumes.create state req session id) w := by
  refine keeps_withBody h.toCalm fun request hbody => ?_
  refine keeps_withPool h.toCalm fun inv pool hpool => ?_
  replace h := h.inventory (some inv)
  cases hvolume : newVolume request with
  | error e => exact keeps_answer h.toCalm _ rfl
  | ok volume =>
      refine keeps_withVirt h.toCalm ?_
      refine keeps_ask (h.toCalm.ok ⟨h.isSome, h.toCalm.unfailed⟩) fun _ => ?_
      refine keeps_withReply (fun _ => rfl) (fun e => ⟨unlisted_plain e, unlisted_status e⟩)
        fun existing => ?_
      cases volume.checkAgainst pool.name existing with
      | error e => exact keeps_listed rfl rfl (List.mem_singleton_self _)
      | ok _ =>
          have hopen := h.open.listed (show Asked.hasRow ⟨.volumeNames id, none⟩ = false from rfl)
          have htarget : targetOf req (some inv) (.job (.createVolume id volume.toXml)) =
              some (pool.name ++ "/" ++ volume.name.asStr) := by
            simp [targetOf, hpool, hbody, newVolume_name hvolume, Except.toOption]
          refine keeps_finish session (some inv) rfl ?_
          exact part_job .volume hopen trivial (fits req _ rfl htarget rfl) (by decide) rfl rfl rfl

theorem keeps_removeVolume (h : w.Armed state req session) (id : Uuid) (name : String) :
    Keeps state req (Volumes.remove state req session id name) w := by
  unfold Volumes.remove
  cases checkText "Volume name" name with
  | error e => exact keeps_answer h.toCalm _ rfl
  | ok _ =>
      refine keeps_withPool h.toCalm fun inv pool hpool => ?_
      replace h := h.inventory (some inv)
      refine keeps_withVirt h.toCalm (keeps_finish session (some inv) rfl ?_)
      have htarget : targetOf req (some inv) (.job (.deleteVolume id name)) =
          some (pool.name ++ "/" ++ name) :=
        targets_found hpool
      exact part_job .volume h.open trivial (fits req _ rfl htarget rfl) (by decide) rfl rfl rfl

end Volumes

end Lodger.Server
