import JdRelay.Agent.TriggerBuild
import JdRelay.Services.Submission
import JdRelay.Ws.Traffic

namespace Ws.BuildOrders
open Text Json Crypto Runs Dispatch Traffic
open Agent (bytes Nlohmann)
open Agent.BuildPoll (TriggerRequest readTrigger)
open Agent.TriggerBuild (Config Request Post jobName onBuildTrigger Clean Literal address)
open Agent.Transit (ReadsFlat AesGcm Bio)
open Services (WorkOrderDict Replies Effect)
open Services.Submission (lift_ok_bind lift_error_bind)

section Order

structure Order where
  orderNo : Str
  issue : Str
  project : Str
  branch : Str
  buildCmd : Str
  scalar : ∀ s ∈ [orderNo, issue, project, branch, buildCmd], Scalar s

structure Holds (w : WorkOrderDict) (o : Order) : Prop where
  orderNo : w.lookup (str "order_no") = some (.str o.orderNo)
  issue : w.lookup (str "issue") = some (.str o.issue)
  project : WorkOrderDict.get w "project" (.str []) = .str o.project
  branch : w.lookup (str "branch") = some (.str o.branch)
  buildCmd : WorkOrderDict.get w "build_cmd" (.str []) = .str o.buildCmd

def Order.fields (o : Order) : List (Str × Value) :=
  [(str "work_order_id", .str o.orderNo),
    (str "issue", .str o.issue),
    (str "project", .str o.project),
    (str "branch", .str o.branch),
    (str "build_cmd", .str o.buildCmd)]

def Order.payload (o : Order) : Str := dumps (.obj o.fields)

variable {reprOf : Value → Str} {w : WorkOrderDict} {o : Order}

theorem item_ok {key : String} {v : Value} (h : w.lookup (str key) = some v) : WorkOrderDict.item w key = .ok v := by
  rw [WorkOrderDict.item, h]

theorem triggerBuild_effects (h : Holds w o) {current next : State.WorkOrderState}
    (hcurrent : Services.RelayService.currentState w = .ok current)
    (hnext : State.transition current .building = .ok next) (replies : Replies) :
    (Services.RelayService.triggerBuild reprOf replies w).effects =
      if replies.forwarder.isSome then [.sendToProject (.str o.project) .buildTrigger o.payload] else [] := by
  unfold Services.RelayService.triggerBuild
  rw [hcurrent, lift_ok_bind, hnext, lift_ok_bind, item_ok h.orderNo, item_ok h.issue, item_ok h.branch, h.project,
    h.buildCmd]
  rcases hforwarder : replies.forwarder with _ | _ | success
  · rfl
  · rfl
  · cases success <;> rfl

theorem triggerBuild_sends (h : Holds w o) {replies : Replies} {project : Value} {type : MessageType} {payload : Str}
    (hsends : .sendToProject project type payload ∈ (Services.RelayService.triggerBuild reprOf replies w).effects) :
    project = .str o.project ∧ type = .buildTrigger ∧ payload = o.payload := by
  cases hcurrent : Services.RelayService.currentState w with
  | error e =>
      rw [Services.RelayService.triggerBuild, hcurrent, lift_error_bind] at hsends
      cases hsends
  | ok current =>
      cases hnext : State.transition current .building with
      | error e =>
          rw [Services.RelayService.triggerBuild, hcurrent, lift_ok_bind, hnext, lift_error_bind] at hsends
          cases hsends
      | ok next =>
          rw [triggerBuild_effects h hcurrent hnext replies] at hsends
          split at hsends
          · cases List.mem_singleton.mp hsends
            exact ⟨rfl, rfl, rfl⟩
          · cases hsends

end Order

section Handler

variable (c : Agent.Jenkins.Client) (cfg : Config)

def requestOf (t : TriggerRequest) : Request := ⟨bytes t.project, bytes t.branch, bytes t.buildCmd, bytes t.issue⟩

def posted (plaintext : Bytes) : Option Post :=
  if cfg.jenkinsUrl = [] then none
  else
    match readTrigger c plaintext with
    | .error _ => none
    | .ok request => some (onBuildTrigger cfg (requestOf request))

def Order.request (o : Order) : Request := ⟨bytes o.project, bytes o.branch, bytes o.buildCmd, bytes o.issue⟩

structure Asks (o : Order) (post : Post) : Prop where
  form : Percent.parseForm post.fields = o.request.params
  target : Clean cfg.jenkinsUrl → Literal (jobName cfg o.request) →
    Url.parse post.url = address cfg.jenkinsUrl (jobName cfg o.request)

variable {c cfg} {o : Order}

theorem text_fields (o : Order) : ∀ f ∈ o.fields, ∃ s, f.2 = .str s ∧ Scalar s ∧ Scalar f.1 := by
  have hscalar := o.scalar
  simp only [List.forall_mem_cons] at hscalar
  obtain ⟨horderNo, hissue, hproject, hbranch, hbuildCmd, -⟩ := hscalar
  simp only [Order.fields, List.forall_mem_cons]
  exact ⟨⟨_, rfl, horderNo, scalar_str _⟩, ⟨_, rfl, hissue, scalar_str _⟩, ⟨_, rfl, hproject, scalar_str _⟩,
    ⟨_, rfl, hbranch, scalar_str _⟩, ⟨_, rfl, hbuildCmd, scalar_str _⟩, nofun⟩

theorem scalar_payload (o : Order) : Scalar o.payload := scalar_object (text_fields o)

theorem loads_payload (o : Order) : loads o.payload = some (.obj o.fields) := by
  refine loads_dumpsWith spaced_standard (List.cons_ne_nil _ _) fun f hf => ?_
  obtain ⟨s, hs, hscalar, hkey⟩ := text_fields o f hf
  exact ⟨fun _ => hkey, hs ▸ .str fun _ => hscalar⟩

theorem keys_fields (o : Order) : ∀ f ∈ o.fields, Scalar f.1 := by
  intro f hf
  obtain ⟨s, -, -, hkey⟩ := text_fields o f hf
  exact hkey

theorem wire_fields (o : Order) : ∀ f ∈ o.fields, Agent.Transit.Wire f.2 := by
  intro f hf
  obtain ⟨s, hs, hscalar, -⟩ := text_fields o f hf
  exact hs ▸ .str hscalar

theorem value_text {fields fields' : List (Str × Value)} (hlook : ∀ key, lookup? fields' key = lookup? fields key)
    {key s : Str} (default : Str) (h : lookup? fields key = some (.str s)) :
    Nlohmann.value Nlohmann.getString key default (.obj fields') = .ok s := by
  rw [Nlohmann.value, hlook, h]
  rfl

theorem readTrigger_payload (hjson : ReadsFlat c.nl) (o : Order) :
    readTrigger c (bytes o.payload) = .ok ⟨o.project, o.branch, o.buildCmd, o.issue⟩ := by
  obtain ⟨data, hdata⟩ := Option.isSome_iff_exists.mp (scalar_iff.mpr (scalar_payload o))
  obtain ⟨fields, hparse, hlook⟩ := hjson.reads hdata (loads_payload o) (keys_fields o) (wire_fields o)
  have hparsed : c.nl.parsed (bytes o.payload) = .ok (.obj fields) := by
    rw [bytes, hdata, Option.getD_some, Nlohmann.parsed, hparse]
  simp only [readTrigger, hparsed, bind, Except.bind, value_text hlook _ (show lookup? o.fields (str "project") = _ from rfl),
    value_text hlook _ (show lookup? o.fields (str "branch") = _ from rfl),
    value_text hlook _ (show lookup? o.fields (str "build_cmd") = _ from rfl),
    value_text hlook _ (show lookup? o.fields (str "issue") = _ from rfl)]

theorem posted_payload (hjson : ReadsFlat c.nl) (hurl : cfg.jenkinsUrl ≠ []) (o : Order) :
    ∃ post, posted c cfg (bytes o.payload) = some post ∧ Asks cfg o post := by
  refine ⟨onBuildTrigger cfg o.request, ?_, ?_, fun hclean hjob => ?_⟩
  · rw [posted, if_neg hurl, readTrigger_payload hjson]
    rfl
  · change Percent.parseForm (Agent.TriggerBuild.postFields o.request.params) = _
    rw [Agent.TriggerBuild.postFields_eq, Percent.parseForm_join]
  · exact Agent.TriggerBuild.address_of_literal hclean hjob

end Handler

section Run

variable (reprOf : Value → Str) (c : Agent.Jenkins.Client) (cfg : Config)

def triggers (ms : List Sent) : List Str := (ms.filter (·.type = .buildTrigger)).map (·.payload)

def postedBy (outputs : List (MessageType × Bytes)) : List Post :=
  outputs.filterMap fun out => if out.1 = .buildTrigger then posted c cfg out.2 else none

-- The forwarder sends a BUILD_TRIGGER in trigger_build only.
def Ordered : Event → Prop
  | .forwarderSends _ type payload => type = .buildTrigger → ∃ w o replies project,
      Holds w o ∧ .sendToProject project type payload ∈ (Services.RelayService.triggerBuild reprOf replies w).effects
  | _ => True

def InOrder (s : State) : Prop :=
  s.agent.worker.pending = [] → ∃ orders waiting : List Order,
    triggers s.forwarder.sent = (orders ++ waiting).map Order.payload ∧ triggers s.toAgent = waiting.map Order.payload ∧
    List.Forall₂ (Asks cfg) orders (postedBy c cfg (s.agent.worker.done.filterMap dispatched))

def Originated (s : State) : Prop := ∀ m ∈ s.forwarder.sent, m.type = .buildTrigger → ∃ o : Order, m.payload = o.payload

variable {reprOf c cfg} {d : Session} {gcm : AesGcm} {s t : State} {e : Event}

theorem originated_payloads {ms : List Sent} (h : ∀ m ∈ ms, m.type = .buildTrigger → ∃ o : Order, m.payload = o.payload) :
    ∃ orders : List Order, triggers ms = orders.map Order.payload := by
  have hrange : triggers ms ∈ Set.range (List.map Order.payload) := by
    rw [Set.range_list_map]
    intro payload hmem
    obtain ⟨m, hm, rfl⟩ := List.mem_map.mp hmem
    obtain ⟨hm, htype⟩ := List.mem_filter.mp hm
    obtain ⟨o, ho⟩ := h m hm (of_decide_eq_true htype)
    exact ⟨o, ho.symm⟩
  obtain ⟨orders, horders⟩ := hrange
  exact ⟨orders, horders.symm⟩

theorem postedBy_taken (ms : List Sent) :
    postedBy c cfg ((ms.filter (Business ·)).map fun m => (m.type, bytes m.payload)) =
      (triggers ms).filterMap fun payload => posted c cfg (bytes payload) := by
  induction ms with
  | nil => rfl
  | cons m ms ih =>
      by_cases htype : m.type = .buildTrigger
      · have hbusiness : Business m := ⟨htype ▸ nofun, htype ▸ nofun⟩
        simp only [List.filter_cons, hbusiness, decide_true, if_true, List.map_cons, triggers, htype, postedBy,
          List.filterMap_cons] at ih ⊢
        rw [ih]
      · by_cases hbusiness : Business m
        · simp only [List.filter_cons, hbusiness, decide_true, if_true, List.map_cons, triggers, htype, decide_false,
            Bool.false_eq_true, if_false, postedBy, List.filterMap_cons] at ih ⊢
          exact ih
        · simp only [List.filter_cons, hbusiness, triggers, htype, decide_false, Bool.false_eq_true, if_false] at ih ⊢
          exact ih

theorem forall₂_posted (hjson : ReadsFlat c.nl) (hurl : cfg.jenkinsUrl ≠ []) (orders : List Order) :
    List.Forall₂ (Asks cfg) orders
      ((orders.map Order.payload).filterMap fun payload => posted c cfg (bytes payload)) := by
  induction orders with
  | nil => exact .nil
  | cons o orders ih =>
      obtain ⟨post, hpost, hasks⟩ := posted_payload hjson hurl o
      rw [List.map_cons, List.filterMap_cons, hpost]
      exact .cons hasks ih

theorem inOrder_of_live (hjson : ReadsFlat c.nl) (hurl : cfg.jenkinsUrl ≠ []) (h : Live gcm s) (ho : Originated s) :
    InOrder c cfg s := by
  intro hidle
  have hexact := h.inv.agent.exact
  have harrives := hexact.arrives
  obtain ⟨orders, horders⟩ := originated_payloads fun m hm =>
    ho m (harrives ▸ List.mem_append_left s.toAgent hm)
  obtain ⟨waiting, hwaiting⟩ := originated_payloads fun m hm =>
    ho m (harrives ▸ List.mem_append_right s.agent.worker.taken hm)
  refine ⟨orders, waiting, ?_, hwaiting, ?_⟩
  · rw [harrives, List.map_append, ← horders, ← hwaiting, triggers, List.filter_append, List.map_append]
    rfl
  · rw [hexact.dispatches hidle, postedBy_taken, horders]
    exact forall₂_posted hjson hurl orders

theorem Originated.put (h : Originated s) {ms sent : List Sent} (hsent : sent = s.forwarder.sent ++ ms)
    (hms : ∀ m ∈ ms, m.type = .buildTrigger → ∃ o : Order, m.payload = o.payload) :
    ∀ m ∈ sent, m.type = .buildTrigger → ∃ o : Order, m.payload = o.payload := by
  subst hsent
  exact List.forall_mem_append.mpr ⟨h, hms⟩

theorem wire_type {codec : CryptoCodec} {r : Readings} {type : MessageType} {payload : Str} :
    ∀ m ∈ d.forwarderWire codec r type payload, m.type = type ∧ m.payload = payload := by
  intro m hm
  unfold Session.forwarderWire at hm
  split at hm
  · cases List.mem_singleton.mp hm
    exact ⟨rfl, rfl⟩
  · cases hm

theorem originated_step (hs : Originated s) (he : Ordered reprOf e) (h : d.step s e = some t) : Originated t := by
  cases e with
  | agentSends r type payload =>
      simp only [Session.step] at h
      split at h <;> (cases h; exact hs)
  | agentTakes now₁ now₂ =>
      simp only [Session.step] at h
      split at h
      · split at h <;> (cases h; exact hs)
      · cases h
  | agentActs r =>
      simp only [Session.step] at h
      split at h
      · split at h <;> (cases h; exact hs)
      · cases h
        exact hs
      · cases h
  | forwarderSends r type payload =>
      cases h
      refine hs.put rfl fun m hm htype => ?_
      obtain ⟨rfl, rfl⟩ := wire_type m hm
      obtain ⟨w, o, replies, project, hholds, hsends⟩ := he htype
      exact ⟨o, (triggerBuild_sends hholds hsends).2.2⟩
  | forwarderTakes now₁ now₂ =>
      simp only [Session.step] at h
      split at h
      · split at h <;> (cases h; exact hs)
      · cases h
  | forwarderActs r =>
      simp only [Session.step] at h
      split at h
      · cases h
        refine hs.put rfl fun m hm htype => ?_
        rw [(wire_type m hm).1] at htype
        cases htype
      · cases h
        exact hs
      · cases h

end Run

section Flow

variable {reprOf : Value → Str} {c : Agent.Jenkins.Client} {cfg : Config} {lib : Agent.Handshake.Library}
  {flib : Handshake.Library} {aes : Aes} {agent : Agent.Handshake.Session} {forwarder : Handshake.Session} {limit : Nat}

theorem orders_reach_jenkins (haes : aes.Lawful) (hbio : Bio lib.ssl limit) (hjson : ReadsFlat lib.nl)
    (hjoined : Establish.Joined agent forwarder) (hclient : c.nl = lib.nl) (hurl : cfg.jenkinsUrl ≠ []) {es : List Event}
    (hes : (sessionOf lib flib aes agent forwarder).machine.Guarded (fun s e => Honest limit s e ∧ Ordered reprOf e)
      (sessionOf lib flib aes agent forwarder).machine.init es) :
    (sessionOf lib flib aes agent forwarder).machine.Always (InOrder c cfg)
      (sessionOf lib flib aes agent forwarder).machine.init es := by
  have hd : Sound (sessionOf lib flib aes agent forwarder) (aes.gcm agent.sharedSecret) limit :=
    sound_sessionOf haes hbio hjson hjoined
  have hinit : Live (aes.gcm agent.sharedSecret) (sessionOf lib flib aes agent forwarder).machine.init :=
    live_init haes hbio hjson hjoined
  refine Machine.always_of_guarded _ (I := fun s => Live _ s ∧ Originated s) (fun hs he ht => ?_) (fun hs => ?_)
    ⟨hinit, nofun⟩ hes
  · exact ⟨live_step hd hs.1 he.1 ht, originated_step hs.2 he.2 ht⟩
  · exact inOrder_of_live (hclient ▸ hjson) hurl hs.1 hs.2

end Flow

section Sample

def sampleOrder (orderNo issue : String) : Order where
  orderNo := str orderNo
  issue := str issue
  project := str "app"
  branch := str "main"
  buildCmd := str "make"
  scalar := by
    simp only [List.forall_mem_cons]
    exact ⟨scalar_str _, scalar_str _, scalar_str _, scalar_str _, scalar_str _, nofun⟩

def sampleOrderDict (orderNo issue : String) : WorkOrderDict :=
  (((((∅ : WorkOrderDict).insert (str "order_no") (.str (str orderNo))).insert (str "issue") (.str (str issue))).insert
    (str "project") (.str (str "app"))).insert (str "branch") (.str (str "main"))).insert (str "build_cmd")
    (.str (str "make")) |>.insert (str "state") (.str (str "APPROVED"))

theorem sample_holds (orderNo issue : String) : Holds (sampleOrderDict orderNo issue) (sampleOrder orderNo issue) := by
  constructor <;> rfl

theorem sample_ordered (orderNo issue : String) (r : Readings) :
    Ordered (fun _ => []) (.forwarderSends r .buildTrigger (sampleOrder orderNo issue).payload) := by
  intro _
  refine ⟨sampleOrderDict orderNo issue, sampleOrder orderNo issue, ⟨none, some (.ok true)⟩, .str (str "app"),
    sample_holds orderNo issue, ?_⟩
  have happroved : Services.RelayService.currentState (sampleOrderDict orderNo issue) = .ok .approved := rfl
  rw [triggerBuild_effects (sample_holds orderNo issue) happroved rfl]
  exact List.mem_singleton_self _

def sampleJenkins : Agent.Jenkins.Client := ⟨Establish.sampleAgent.nl, fun _ => 0⟩

def sampleConfig : Config := ⟨Agent.TriggerBuild.text "http://jenkins", []⟩

def ordersRun : List Event :=
  [.forwarderSends (readingsOf 1) .buildTrigger (sampleOrder "WO-1" "PROJ-7").payload,
    .forwarderSends (readingsOf 2) .buildTrigger (sampleOrder "WO-2" "PROJ-8").payload,
    .agentTakes 1700000000000 1700000000000, .agentSends (readingsOf 3) .heartbeat [], .agentActs (readingsOf 4),
    .agentActs (readingsOf 5), .agentTakes 1700000000000 1700000000000, .agentActs (readingsOf 6),
    .agentActs (readingsOf 7)]

theorem orders_honest : sampleTraffic.machine.IsRun ordersRun ∧
    sampleTraffic.machine.Guarded (Honest 2147483648) sampleTraffic.machine.init ordersRun := by decide +kernel

theorem orders_ordered : ∀ e ∈ ordersRun, Ordered (fun _ => []) e := by
  simp only [ordersRun, List.forall_mem_cons]
  exact ⟨sample_ordered _ _ _, sample_ordered _ _ _, trivial, trivial, trivial, trivial, trivial, trivial, trivial,
    fun _ hmem => absurd hmem List.not_mem_nil⟩

theorem orders_reach_jenkins_ordersRun : ∃ agent forwarder,
    (sessionOf Establish.sampleAgent Establish.sampleForwarder sampleAes agent forwarder).machine.IsRun ordersRun ∧
      (sessionOf Establish.sampleAgent Establish.sampleForwarder sampleAes agent forwarder).machine.Always
        (InOrder sampleJenkins sampleConfig)
        (sessionOf Establish.sampleAgent Establish.sampleForwarder sampleAes agent forwarder).machine.init ordersRun := by
  obtain ⟨⟨ecdh, text⟩, hsend⟩ := Establish.sample_sends
  obtain ⟨agent, forwarder, h⟩ := Establish.established_of_pair Establish.samplePair Agent.Transit.sample_bio
    Agent.Transit.sample_readsFlat rfl hsend
  obtain ⟨hrun, hhonest⟩ := orders_honest
  rw [← session_established h] at hrun hhonest
  exact ⟨agent, forwarder, hrun, orders_reach_jenkins sample_lawful Agent.Transit.sample_bio
    Agent.Transit.sample_readsFlat h.joined rfl (List.cons_ne_nil _ _) (hhonest.and orders_ordered)⟩

end Sample

end Ws.BuildOrders
