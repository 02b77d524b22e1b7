import Lodger.Server.Serve

namespace Lodger.Server

open Lodger.Lib Lodger.Db Lodger.Http Lodger.Libvirt Lodger.Audit
open Lodger.Cache (Inventory Vm Pool Net)
open ClientIp (HeaderValue header)
open Jobs (Op Power)
open Prog Validate Xml

abbrev Log := List (Step Call Call.Result Stop)

-- The log of a request, in its own terms.
section Log

-- The request's cookie names a live session.
def Found [Formats] (req : Request) (session : Session) (log : Log) : Prop :=
  ∃ token, cookieToken req.headers = some token ∧
    ⟨.session (Formats.sha256 token), .ok (.ok (some session))⟩ ∈ log

-- A ticket that the request brings is used up for the session `key` and the page's origin,
-- once the session is found.
def Redeemed [Formats] (req : Request) (key : Key) (log : Log) : Prop :=
  ∃ front ticket back session,
    log = front ++ ⟨.redeem ticket key (header req.headers "origin"), .ok true⟩ :: back ∧
      Found req session front

def inventoryOf : Step Call Call.Result Stop → Option Inventory
  | ⟨.inventory, .ok inv⟩ => some inv
  | _ => none

def lastInventory (log : Log) : Option Inventory := (log.filterMap inventoryOf).getLast?

def lastAsked (log : Log) : Option Asked :=
  (log.filterMap fun step => askedOf step.call step.reply).getLast?

theorem lastInventory_append (log : Log) (step : Step Call Call.Result Stop) :
    lastInventory (log ++ [step]) = (inventoryOf step).or (lastInventory log) := by
  rw [lastInventory, List.filterMap_append, List.getLast?_append]
  cases h : inventoryOf step <;> simp [h, lastInventory]

theorem lastAsked_append (log : Log) (step : Step Call Call.Result Stop) :
    lastAsked (log ++ [step]) = (askedOf step.call step.reply).or (lastAsked log) := by
  rw [lastAsked, List.filterMap_append, List.getLast?_append]
  cases h : askedOf step.call step.reply <;> simp [h, lastAsked]

-- The calls that `askedOf` looks at.
def asksLibvirt : Call → Bool
  | .poolXmls | .poolXml _ | .networkXmls | .volumeNames _ | .volumes _ => true
  | .job _ | .create _ | .deleteVm .. | .openVnc _ => true
  | _ => false

theorem askedOf_eq_none {step : Step Call Call.Result Stop} (h : asksLibvirt step.call = false) :
    askedOf step.call step.reply = none := by
  obtain ⟨call, reply⟩ := step
  cases call <;> first | rfl | cases h

theorem after_last (w : Watch) {step : Step Call Call.Result Stop}
    (hcall : asksLibvirt step.call = false) :
    (w.after step.call step.reply).last = w.last := by
  unfold Watch.after
  rw [askedOf_eq_none hcall]
  show (w.note step.call step.reply).last = w.last
  unfold Watch.note
  split <;> rfl

variable [Formats] {state : AppState} {req : Request} {w : Watch} {log : Log}

-- What the watch has kept of a log.
structure Seen (req : Request) (log : Log) (w : Watch) : Prop where
  session : ∀ s ∈ w.session, Found req s log
  inventory : w.inventory = lastInventory log
  last : w.last = lastAsked log
  due : w.due = true → ∃ front step, log = front ++ [step] ∧ dueOf step.call step.reply = w.last
  redeemed : ∀ key ∈ w.redeemed, ownKey req key ∧ Redeemed req key log

theorem Found.append {s : Session} (h : Found req s log) (rest : Log) :
    Found req s (log ++ rest) := by
  obtain ⟨token, htoken, hstep⟩ := h
  exact ⟨token, htoken, List.mem_append_left _ hstep⟩

theorem Redeemed.append {key : Key} (h : Redeemed req key log) (rest : Log) :
    Redeemed req key (log ++ rest) := by
  obtain ⟨front, ticket, back, session, rfl, hsession⟩ := h
  exact ⟨front, ticket, back ++ rest, session, by simp, hsession⟩

theorem Seen.redeemed_append (h : Seen req log w) (rest : Log) : ∀ key ∈ w.redeemed,
    ownKey req key ∧ Redeemed req key (log ++ rest) := by
  intro key hkey
  obtain ⟨hown, hticket⟩ := h.redeemed key hkey
  exact ⟨hown, hticket.append rest⟩

-- A step that the watch does not look at.
theorem Seen.other (h : Seen req log w) {step : Step Call Call.Result Stop} {w' : Watch}
    (hsession : w'.session = w.session) (hinventory : w'.inventory = w.inventory)
    (hlast : w'.last = w.last) (hdue : w'.due = false) (hredeemed : w'.redeemed = w.redeemed)
    (hinv : inventoryOf step = none) (hstep : askedOf step.call step.reply = none) :
    Seen req (log ++ [step]) w' := by
  constructor
  · rw [hsession]
    exact fun s hs => (h.session s hs).append _
  · rw [hinventory, lastInventory_append, hinv, h.inventory]
    rfl
  · rw [hlast, lastAsked_append, hstep, h.last]
    rfl
  · simp [hdue]
  · rw [hredeemed]
    exact h.redeemed_append _

theorem Watch.ok_cases {call : Call} (h : w.ok state req call) :
    (w.due = true ∧ ∃ entry s d, call = .audit entry ∧ w.session = some s ∧ w.last = some d ∧
      Describes req (actor state req s) w.inventory d entry) ∨
    (w.due = false ∧ w.mayAsk state req call) := by
  unfold Watch.ok at h
  split at h
  · exact .inl ⟨‹_›, h⟩
  · exact .inr ⟨by simpa using ‹¬w.due = true›, h⟩

theorem Watch.mayAsk_of_ne {call : Call} (h : w.ok state req call)
    (hne : ∀ entry, call ≠ .audit entry) : w.due = false ∧ w.mayAsk state req call := by
  obtain ⟨-, entry, -, -, rfl, -⟩ | hmay := Watch.ok_cases h
  · exact absurd rfl (hne entry)
  · exact hmay

theorem seen_start : Seen req [] {} := ⟨by simp, rfl, rfl, by simp, by simp⟩

-- A reply of libvirt is no inventory, and the watch keeps it.
theorem Seen.called (h : Seen req log w) {step : Step Call Call.Result Stop} {d : Asked}
    (hd : askedOf step.call step.reply = some d) : Seen req (log ++ [step]) (w.called d) := by
  have hinv : inventoryOf step = none := by
    unfold inventoryOf
    split
    · cases hd
    · rfl
  constructor
  · exact fun s hs => (h.session s hs).append _
  · rw [lastInventory_append, hinv]
    exact h.inventory
  · rw [lastAsked_append, hd]
    rfl
  · intro hrow
    refine ⟨log, step, rfl, ?_⟩
    rw [dueOf, hd, Option.filter_some]
    exact if_pos hrow
  · exact h.redeemed_append _

theorem ownKey_token {key : Key} (h : ownKey req key) :
    ∃ token, cookieToken req.headers = some token ∧ Formats.sha256 token = key :=
  Option.map_eq_some_iff.mp h

theorem Seen.session_step (h : Seen req log w) (hdue : w.due = false) {key : Key}
    (hkey : ownKey req key) (found : Option Session) :
    Seen req (log ++ [⟨.session key, .ok (.ok found)⟩]) { w with session := found } := by
  constructor
  · intro s hs
    obtain ⟨token, htoken, rfl⟩ := ownKey_token hkey
    cases hs
    exact ⟨token, htoken, List.mem_append_right _ List.mem_cons_self⟩
  · rw [lastInventory_append]
    exact h.inventory
  · rw [lastAsked_append]
    exact h.last
  · simp [hdue]
  · exact h.redeemed_append _

theorem Seen.inventory_step (h : Seen req log w) (hdue : w.due = false) (inv : Inventory) :
    Seen req (log ++ [⟨.inventory, .ok inv⟩]) { w with inventory := some inv } := by
  constructor
  · exact fun s hs => (h.session s hs).append _
  · rw [lastInventory_append]
    rfl
  · rw [lastAsked_append]
    exact h.last
  · simp [hdue]
  · exact h.redeemed_append _

theorem Seen.redeem_step (h : Seen req log w) (hdue : w.due = false)
    (hsession : w.session.isSome) {ticket : String} {key : Key} (hkey : ownKey req key)
    (redeemed : Bool) :
    Seen req (log ++ [⟨.redeem ticket key (header req.headers "origin"), .ok redeemed⟩])
      { w with redeemed := if redeemed then some key else none } := by
  constructor
  · exact fun s hs => (h.session s hs).append _
  · rw [lastInventory_append]
    exact h.inventory
  · rw [lastAsked_append]
    exact h.last
  · simp [hdue]
  · cases redeemed with
    | true =>
        rintro _ ⟨⟩
        obtain ⟨session, hsome⟩ := Option.isSome_iff_exists.mp hsession
        exact ⟨hkey, log, ticket, [], session, rfl, h.session session hsome⟩
    | false => simp

theorem Seen.step (h : Seen req log w) {step : Step Call Call.Result Stop}
    (hok : w.ok state req step.call) :
    Seen req (log ++ [step]) (w.after step.call step.reply) := by
  unfold Watch.after
  cases hd : askedOf step.call step.reply with
  | some d => exact h.called hd
  | none =>
      obtain ⟨call, reply⟩ := step
      cases call with
      | session key =>
          obtain ⟨hdue, hkey⟩ := Watch.mayAsk_of_ne hok (by simp)
          cases reply with
          | error e => exact h.other rfl rfl rfl hdue rfl rfl hd
          | ok reply =>
              cases reply with
              | error e => exact h.other rfl rfl rfl hdue rfl rfl hd
              | ok found => exact h.session_step hdue hkey found
      | inventory =>
          have hdue := (Watch.mayAsk_of_ne hok (by simp)).1
          cases reply with
          | error e => exact h.other rfl rfl rfl hdue rfl rfl hd
          | ok inv => exact h.inventory_step hdue inv
      | redeem ticket key origin =>
          obtain ⟨hdue, hsession, hkey, rfl⟩ := Watch.mayAsk_of_ne hok (by simp)
          cases reply with
          | error e => exact h.other rfl rfl rfl hdue rfl rfl hd
          | ok redeemed => exact h.redeem_step hdue hsession hkey redeemed
      | audit entry => exact h.other rfl rfl rfl rfl rfl rfl hd
      | _ =>
          have hdue := (Watch.mayAsk_of_ne hok (by simp)).1
          exact h.other rfl rfl rfl hdue rfl rfl hd

-- Over a whole log: what the watch has is what the log says.
theorem seen_final (h : (watch state req).Passes {} log) :
    Seen req log ((watch state req).final {} log) := by
  induction log using List.reverseRecOn with
  | nil => exact seen_start
  | append_singleton log step ih =>
      obtain ⟨hlog, hok, -⟩ := Monitor.passes_append.mp h
      rw [Monitor.final_append]
      exact (ih hlog).step hok

theorem nothing_after_failure {d : Asked} (hlast : w.last = some d) (hfailure : d.failure ≠ none)
    (hpasses : (watch state req).Passes w log) :
    ∀ later ∈ log, asksLibvirt later.call = false := by
  induction log generalizing w with
  | nil => simp
  | cons step log ih =>
      have hstep : asksLibvirt step.call = false := by
        obtain ⟨-, entry, -, -, hcall, -⟩ | ⟨-, hmay⟩ := Watch.ok_cases hpasses.1
        · rw [hcall]
          rfl
        · revert hmay
          have hnone : ¬w.Unfailed := fun h => hfailure (h d hlast)
          cases step.call with
          | job op => exact fun hmay => absurd hmay.unfailed hnone
          | create op => exact fun hmay => absurd hmay.unfailed hnone
          | deleteVm id removeVolumes => exact fun hmay => absurd hmay.unfailed hnone
          | poolXml id => exact fun hmay => absurd hmay.unfailed hnone
          | poolXmls => exact fun hmay => absurd hmay.2 hnone
          | networkXmls => exact fun hmay => absurd hmay.2 hnone
          | volumeNames pool => exact fun hmay => absurd hmay.2 hnone
          | volumes pool => exact fun hmay => absurd hmay.2 hnone
          | openVnc vm => exact fun hmay => absurd hmay.2 hnone
          | _ => exact fun _ => rfl
      refine List.forall_mem_cons.mpr ⟨hstep, ih ?_ hpasses.2⟩
      exact (after_last w hstep).trans hlast

end Log

-- The server has taken any number of requests, in any order of their steps. The `k`th has the
-- steps `log` behind it and `rest` before it.
structure InProgress [Formats] [Xmltree] [Emitter] [Ipnet] (state : AppState)
    (s : Side Request Call Call.Result Stop Response) (k : Nat) (req : Request) (log : Log)
    (rest : M Response) : Prop where
  reachable : Side.Reachable (serve state) s
  party : s.parties[k]? = some (req, rest)
  log : s.own k = log
  replies : ∀ entry ∈ s.log, ∀ message, entry.2.reply ≠ .error (.panic message)

section Main

variable [Formats] [Xmltree] [Emitter] [Ipnet] {state : AppState}
  {s : Side Request Call Call.Result Stop Response} {k : Nat} {req : Request} {rest : M Response}
  {front back : Log} {step : Step Call Call.Result Stop}

theorem InProgress.passes {log : Log} (h : InProgress state s k req log rest) :
    (watch state req).Passes {} log ∧ Keeps state req rest ((watch state req).final {} log) := by
  have hpasses := h.reachable.passes h.party (serve_keeps state req) h.replies
  rw [h.log] at hpasses
  exact hpasses

-- Where a step stands: what was seen before it permits it.
theorem InProgress.at_step (h : InProgress state s k req (front ++ step :: back) rest) :
    ∃ w, Seen req front w ∧ w.ok state req step.call ∧
      (watch state req).Passes (w.after step.call step.reply) back ∧
      Keeps state req rest ((watch state req).final (w.after step.call step.reply) back) := by
  obtain ⟨hpasses, hrest⟩ := h.passes
  obtain ⟨hfront, hok, hback⟩ := Monitor.passes_append.mp hpasses
  rw [Monitor.final_append] at hrest
  exact ⟨_, seen_final hfront, hok, hback, hrest⟩

omit [Xmltree] [Emitter] [Ipnet] in
theorem Seen.found {w : Watch} (h : Seen req front w) (hguarded : Guarded state req w.session) :
    ∃ session, Found req session front ∧ csrfMatches req.headers session = true := by
  obtain ⟨session, hsession, hcsrf⟩ := hguarded.csrf
  exact ⟨session, h.session session hsession, hcsrf⟩

-- The calls behind the guard that change something, audit rows apart: these follow such a call.
def isChange : Call → Bool
  | .job _ | .create _ | .deleteVm .. | .deleteSession _ | .issueTicket .. => true
  | .handler .createAccount | .handler .deleteAccount | .handler .changePassword => true
  | _ => false

-- The two handlers that change something without a session.
def isEntry : Call → Bool
  | .handler .login | .handler .setupClaim => true
  | _ => false

-- Behind the guard nothing changes without a live session and its token, and only for a page of
-- Lodger's own. In front of it the page is enough.
theorem change_needs_session_and_token
    (h : InProgress state s k req (front ++ step :: back) rest) :
    (isChange step.call = true ∨ isEntry step.call = true →
      isSafe req.method = false ∧ fromLodger req.headers state.publicOrigin = true) ∧
    (isChange step.call = true →
      ∃ session, Found req session front ∧ csrfMatches req.headers session = true) := by
  obtain ⟨w, hseen, hok, -, -⟩ := h.at_step
  have hmayAsk : isChange step.call = true ∨ isEntry step.call = true →
      w.mayAsk state req step.call := by
    intro hcall
    refine (Watch.mayAsk_of_ne hok fun entry heq => ?_).2
    rw [heq] at hcall
    simp [isChange, isEntry] at hcall
  have hpage : isEntry step.call = true → OwnPage state req := by
    intro hentry
    have hmay := hmayAsk (.inr hentry)
    revert hentry hmay
    cases step.call with
    | handler handle =>
        cases handle with
        | login => exact fun _ hmay => hmay
        | setupClaim => exact fun _ hmay => hmay
        | _ => exact fun hentry => absurd hentry (by simp [isEntry])
    | _ => exact fun hentry => absurd hentry (by simp [isEntry])
  have hguarded : isChange step.call = true → Guarded state req w.session := by
    intro hchange
    have hmay := hmayAsk (.inl hchange)
    revert hchange hmay
    cases step.call with
    | job op => exact fun _ hmay => hmay.guarded
    | create op => exact fun _ hmay => hmay.guarded
    | deleteVm id removeVolumes => exact fun _ hmay => hmay.guarded
    | deleteSession key => exact fun _ hmay => hmay.1
    | issueTicket key origin => exact fun _ hmay => hmay.1
    | handler handle =>
        cases handle with
        | createAccount => exact fun _ hmay => hmay
        | deleteAccount => exact fun _ hmay => hmay
        | changePassword => exact fun _ hmay => hmay
        | _ => exact fun hchange => absurd hchange (by simp [isChange])
    | _ => exact fun hchange => absurd hchange (by simp [isChange])
  constructor
  · rintro (hchange | hentry)
    · exact ⟨(hguarded hchange).method, (hguarded hchange).page⟩
    · exact ⟨(hpage hentry).method, (hpage hentry).page⟩
  · exact fun hchange => hseen.found (hguarded hchange)

-- A call that loses something is made only when the body names what the last inventory has.
theorem loss_is_confirmed (h : InProgress state s k req (front ++ step :: back) rest) :
    Confirmed req (lastInventory front) step.call := by
  obtain ⟨w, hseen, hok, -, -⟩ := h.at_step
  rw [← hseen.inventory]
  obtain ⟨-, entry, -, -, hcall, -⟩ | ⟨-, hmay⟩ := Watch.ok_cases hok
  · rw [hcall]
    trivial
  · revert hmay
    cases step.call with
    | job op => exact fun hmay => hmay.confirmed
    | create op => exact fun hmay => hmay.confirmed
    | deleteVm id removeVolumes => exact fun hmay => hmay.confirmed
    | _ => exact fun _ => trivial

-- The row of a call comes right after it, unless the request waits for it, or ends without an
-- answer.
theorem call_is_audited (h : InProgress state s k req (front ++ step :: back) rest) {d : Asked}
    (hd : dueOf step.call step.reply = some d) :
    (∃ session entry reply tail, back = ⟨.audit entry, reply⟩ :: tail ∧ Found req session front ∧
      Describes req (actor state req session) (lastInventory front) d entry) ∨
    (back = [] ∧ ∀ response, rest ≠ .done (.ok response)) := by
  obtain ⟨w, hseen, -, hback, hrest⟩ := h.at_step
  obtain ⟨hasked, hrow⟩ := Option.filter_eq_some_iff.mp hd
  have hafter : w.after step.call step.reply = w.called d := by rw [Watch.after, hasked]
  rw [hafter] at hback hrest
  cases back with
  | nil =>
      refine .inr ⟨rfl, ?_⟩
      rintro response rfl
      have hdue : d.hasRow = false := hrest.1
      rw [hrow] at hdue
      cases hdue
  | cons next tail =>
      obtain ⟨call, reply⟩ := next
      have hnext : (w.called d).ok state req call := hback.1
      obtain ⟨-, entry, session, d', rfl, hsession, hlast, hentry⟩ | ⟨hdue, -⟩ :=
        Watch.ok_cases hnext
      · cases hlast
        rw [← hseen.inventory]
        exact .inl ⟨session, entry, reply, tail, rfl, hseen.session session hsession, hentry⟩
      · have hdue : d.hasRow = false := hdue
        rw [hrow] at hdue
        cases hdue

-- There is no row without the call that it tells of.
theorem row_follows_its_call {entry : Entry} {reply : Except Stop Unit}
    (h : InProgress state s k req (front ++ ⟨.audit entry, reply⟩ :: back) rest) :
    ∃ before last d session, front = before ++ [last] ∧ dueOf last.call last.reply = some d ∧
      Found req session front ∧
      Describes req (actor state req session) (lastInventory front) d entry := by
  obtain ⟨w, hseen, hok, -, -⟩ := h.at_step
  obtain ⟨hdue, entry', session, d, hentry, hsession, hlast, hrow⟩ | ⟨-, hmay⟩ := Watch.ok_cases hok
  · cases hentry
    obtain ⟨before, last, hfront, hd⟩ := hseen.due hdue
    rw [← hseen.inventory]
    exact ⟨before, last, d, session, hfront, hd.trans hlast, hseen.session session hsession, hrow⟩
  · exact hmay.elim

-- After a call that failed, a request asks nothing more of libvirt.
theorem failed_call_is_last (h : InProgress state s k req (front ++ step :: back) rest) {d : Asked}
    (hd : askedOf step.call step.reply = some d) (hfailure : d.failure ≠ none) :
    ∀ later ∈ back, asksLibvirt later.call = false := by
  obtain ⟨w, -, -, hback, -⟩ := h.at_step
  refine nothing_after_failure ?_ hfailure hback
  rw [Watch.after, hd]
  rfl

-- A request that ended tells how its last libvirt call went, unless its client went away.
theorem answer_tells_last_call {log : Log} {r : Except Stop Response}
    (h : InProgress state s k req log (.done r)) :
    r = .error .dropped ∨
      ∃ response, r = .ok response ∧ ∀ d ∈ lastAsked log, response.status ∈ d.statuses := by
  obtain ⟨hlog, hends⟩ := h.passes
  cases r with
  | error e => exact .inl (congrArg Except.error hends)
  | ok response =>
      refine .inr ⟨response, rfl, ?_⟩
      rw [← (seen_final hlog).last]
      exact hends.2.1

-- A connection becomes a WebSocket only with a ticket of its own session and origin.
theorem socket_needs_ticket {log : Log} {response : Response} {key : Key}
    (h : InProgress state s k req log (.done (.ok response)))
    (hsocket : response.body.socket = some key) :
    ownKey req key ∧ Redeemed req key log := by
  obtain ⟨hlog, hends⟩ := h.passes
  exact (seen_final hlog).redeemed key (hends.2.2 key hsocket)

-- And so does a display open.
theorem display_needs_ticket {vm : Uuid} (h : InProgress state s k req (front ++ step :: back) rest)
    (hcall : step.call = .openVnc vm) : ∃ key, ownKey req key ∧ Redeemed req key front := by
  obtain ⟨w, hseen, hok, -, -⟩ := h.at_step
  rw [hcall] at hok
  obtain ⟨-, hredeemed, -⟩ := Watch.mayAsk_of_ne hok (by simp)
  obtain ⟨key, hkey⟩ := Option.isSome_iff_exists.mp hredeemed
  exact ⟨key, hseen.redeemed key hkey⟩

end Main

-- One VM, whose force-off fails, and whose display opens.
section Shop

def ascii (text : String) : HeaderValue := text.toList.map fun c => UInt8.ofNat c.toNat

local instance shopFormats : Formats where
  sha256 _ := 0
  uuid _ := some 7
  decode text := some text
  confirm _ := .ok { confirm := some "web" }
  deleteRequest _ := .error "no JSON"
  settings _ := .error "no JSON"
  createPool _ := .error "no JSON"
  createNetwork _ := .error "no JSON"
  change _ := .error "no JSON"
  removePool _ := .error "no JSON"
  removeNetwork _ := .error "no JSON"
  createVolume _ := .error "no JSON"

local instance shopTrees : Xmltree := ⟨fun _ => .error "no document"⟩
local instance shopEmitter : Emitter := ⟨fun _ => ""⟩
local instance shopIpnet : Ipnet := ⟨fun _ => none⟩

def shopState : AppState := ⟨[], none⟩
def shopSession : Session := ⟨1, "ann", "c"⟩

def shopReplies : (c : Call) → Except Stop c.Result
  | .session _ => .ok (.ok (some shopSession))
  | .inventory => .ok { vms := AList.insert 7 ⟨7, "web", .running, 1, 1024, true, false, true⟩ ∅ }
  | .connected | .redeem .. => .ok true
  | .job _ => .ok (.error (.other "busy"))
  | .openVnc _ => .ok (.ok (.ok ()))
  | .audit _ => .ok ()
  | _ => .error .dropped

def told (c : Call) : Step Call Call.Result Stop := ⟨c, shopReplies c⟩

theorem shopReplies_ne (c : Call) (message : String) :
    shopReplies c ≠ .error (.panic message) := by
  cases c <;> simp [shopReplies]

theorem inProgress_of_after {req : Request} (log : List Call) {rest : M Response}
    (h : (serve shopState req).After (log.map told) rest) :
    InProgress shopState ⟨[(req, rest)], (log.map told).map (0, ·)⟩ 0 req (log.map told) rest := by
  refine ⟨Side.reachable_solo h, rfl, Side.own_map 0 _ _, ?_⟩
  simp only [List.map_map, List.forall_mem_map]
  exact fun c _ => shopReplies_ne c

def offRequest : Request where
  method := .post
  path := ["api", "vms", "7", "actions", "force-off"]
  headers := [("cookie", ascii "__Host-lodger_sid=t"), ("sec-fetch-site", ascii "same-origin"),
    ("x-csrf-token", ascii "c")]
  peer := .v4 0
  body := [0x7b]

def offRow : Entry where
  event := "vm.lifecycle"
  account := some "ann"
  clientIp := some (.v4 0)
  targetKind := some "vm"
  target := some "web"
  result := "failed"
  detail := { action := some "force-off", reason := some "libvirt_error" }

def offFront : Log := [told (.session 0), told .inventory, told .connected]
def offCall : Step Call Call.Result Stop := told (.job (.power 7 .forceOff))
def offAnswer : Response := errorAnswer .badGateway (.other "busy")
def offLog : Log := offFront ++ offCall :: [told (.audit offRow)]
def offDue : Asked := ⟨.job (.power 7 .forceOff), some (.other "busy")⟩

theorem off_inProgress : InProgress shopState
    ⟨[(offRequest, .done (.ok offAnswer))], offLog.map (0, ·)⟩ 0 offRequest offLog
    (.done (.ok offAnswer)) :=
  inProgress_of_after
    [.session 0, .inventory, .connected, .job (.power 7 .forceOff), .audit offRow]
    (replay_after shopReplies 5 (serve shopState offRequest))

theorem change_needs_session_and_token_off : (isSafe offRequest.method = false ∧
    fromLodger offRequest.headers none = true) ∧
    ∃ session, Found offRequest session offFront ∧
      csrfMatches offRequest.headers session = true := by
  obtain ⟨hpage, hsession⟩ := change_needs_session_and_token off_inProgress
  exact ⟨hpage (.inl rfl), hsession rfl⟩

theorem loss_is_confirmed_off :
    Confirmed offRequest (lastInventory offFront) (.job (.power 7 .forceOff)) :=
  loss_is_confirmed off_inProgress

theorem call_is_audited_off :
    (∃ session entry reply tail, [told (.audit offRow)] = ⟨.audit entry, reply⟩ :: tail ∧
      Found offRequest session offFront ∧
      Describes offRequest (actor shopState offRequest session) (lastInventory offFront) offDue
        entry) ∨
    ([told (.audit offRow)] = [] ∧
      ∀ response, (.done (.ok offAnswer) : M Response) ≠ .done (.ok response)) :=
  call_is_audited off_inProgress rfl

theorem row_follows_its_call_off : ∃ before last d session,
    offFront ++ [offCall] = before ++ [last] ∧ dueOf last.call last.reply = some d ∧
    Found offRequest session (offFront ++ [offCall]) ∧
    Describes offRequest (actor shopState offRequest session)
      (lastInventory (offFront ++ [offCall])) d offRow :=
  row_follows_its_call off_inProgress

theorem failed_call_is_last_off : asksLibvirt (.audit offRow) = false :=
  failed_call_is_last off_inProgress (d := offDue) rfl (by simp [offDue]) (told (.audit offRow))
    (List.mem_singleton_self _)

theorem answer_tells_last_call_off : (.ok offAnswer : Except Stop Response) = .error .dropped ∨
    ∃ response, (.ok offAnswer : Except Stop Response) = .ok response ∧
      ∀ d ∈ lastAsked offLog, response.status ∈ d.statuses :=
  answer_tells_last_call off_inProgress

def vncRequest : Request where
  method := .get
  path := ["ws", "vms", "7", "vnc"]
  headers := [("cookie", ascii "__Host-lodger_sid=t"), ("origin", ascii "https://lodger")]
  peer := .v4 0
  body := []
  ticket := some "t"
  upgrade := true

def vncFront : Log :=
  [told (.session 0), told (.redeem "t" 0 (some "https://lodger")), told .connected]
def vncAnswer : Response := { status := .switchingProtocols, body := .display 0 7 }

theorem vnc_inProgress : InProgress shopState
    ⟨[(vncRequest, .done (.ok vncAnswer))], (vncFront ++ [told (.openVnc 7)]).map (0, ·)⟩ 0
    vncRequest (vncFront ++ [told (.openVnc 7)]) (.done (.ok vncAnswer)) :=
  inProgress_of_after
    [.session 0, .redeem "t" 0 (some "https://lodger"), .connected, .openVnc 7]
    (replay_after shopReplies 4 (serve shopState vncRequest))

theorem socket_needs_ticket_vnc : ownKey vncRequest 0 ∧
    Redeemed vncRequest 0 (vncFront ++ [told (.openVnc 7)]) :=
  socket_needs_ticket vnc_inProgress rfl

theorem display_needs_ticket_vnc : ∃ key, ownKey vncRequest key ∧ Redeemed vncRequest key vncFront :=
  display_needs_ticket vnc_inProgress rfl

end Shop

end Lodger.Server
