import JdRelay.Api.Deployed
import JdRelay.Base.Grouping
import JdRelay.Ws.AgentManager

namespace Api.Stats
open Text State State.WorkOrderState Models Query Deployed

structure StatsResponse where
  totalOrders : Nat
  pendingApproval : Nat
  building : Nat
  success : Nat
  failed : Nat
  onlineAgents : Nat
  deriving DecidableEq

-- A later row of the dict comprehension overwrites an earlier one of its key.
def stateCounts (rows : List (Str × Nat)) : Dict Str Nat := rows.foldl (fun counts row => counts.insert row.1 row.2) ∅

def get (counts : Dict Str Nat) (state : Str) : Nat := (counts.lookup state).getD 0

section Route

variable {K S : Type}

def onlineAgents (manager : Option (Ws.AgentManager K S)) : Nat := (manager.map (·.count)).getD 0

def getStats (rows : List (Str × Nat)) (manager : Option (Ws.AgentManager K S)) : StatsResponse :=
  let counts := stateCounts rows
  { totalOrders := (counts.entries.map (·.2)).sum
    pendingApproval := get counts (str "PENDING_APPROVAL") + get counts (str "PENDING_SECOND_REVIEW")
    building := get counts (str "BUILDING")
    success := get counts (str "SUCCESS")
    failed := get counts (str "FAILED")
    onlineAgents := onlineAgents manager }

end Route

section Counts

variable {rows : List (Str × Nat)}

theorem stateCounts_concat (rows : List (Str × Nat)) (row : Str × Nat) :
    stateCounts (rows ++ [row]) = (stateCounts rows).insert row.1 row.2 := by
  rw [stateCounts, List.foldl_append]
  rfl

theorem mem_stateCounts (rows : List (Str × Nat)) (k : Str) : k ∈ stateCounts rows ↔ k ∈ rows.map (·.1) := by
  induction rows using List.reverseRecOn with
  | nil => exact iff_of_false (AList.notMem_empty k) List.not_mem_nil
  | append_singleton rows row ih => rw [stateCounts_concat, AList.mem_insert, ih, List.map_append, List.mem_append,
      List.map_singleton, List.mem_singleton, or_comm]

theorem lookup_stateCounts (hrows : (rows.map (·.1)).Nodup) {row : Str × Nat} (hrow : row ∈ rows) :
    (stateCounts rows).lookup row.1 = some row.2 := by
  induction rows using List.reverseRecOn with
  | nil => cases hrow
  | append_singleton rows last ih =>
      rw [List.map_append, List.nodup_append] at hrows
      obtain ⟨hfront, -, hlast⟩ := hrows
      rw [stateCounts_concat, Dict.lookup_insert_if]
      rcases List.mem_append.mp hrow with hrow | hrow
      · rw [if_neg (hlast _ (List.mem_map_of_mem hrow) _ (List.mem_singleton.mpr rfl)), ih hfront hrow]
      · rw [List.mem_singleton.mp hrow, if_pos rfl]

theorem sum_stateCounts (hrows : (rows.map (·.1)).Nodup) :
    ((stateCounts rows).entries.map (·.2)).sum = (rows.map (·.2)).sum := by
  induction rows using List.reverseRecOn with
  | nil => rfl
  | append_singleton rows last ih =>
      rw [List.map_append, List.nodup_append] at hrows
      obtain ⟨hfront, -, hlast⟩ := hrows
      have hnew : last.1 ∉ stateCounts rows := fun hmem =>
        hlast _ ((mem_stateCounts rows last.1).mp hmem) _ (List.mem_singleton.mpr rfl) rfl
      rw [stateCounts_concat, AList.entries_insert_of_notMem hnew, List.map_cons, List.sum_cons, ih hfront,
        List.map_append, List.sum_append, List.map_singleton, List.sum_singleton, Nat.add_comm]

end Counts

section Exact

def states (c : Content) : List Str := c.orders.map (·.state)

def Plain (c : Content) : Prop := ∀ state ∈ states c, ∃ st : WorkOrderState, state = st.value

def Separates (equal : Str → Str → Bool) : Prop :=
  ∀ st st' : WorkOrderState, equal st.value st'.value = true → st = st'

def holding (c : Content) (st : WorkOrderState) : Nat := (states c).countP (· = st.value)

def counted (c : Content) (online : Nat) : StatsResponse where
  totalOrders := c.orders.length
  pendingApproval := holding c pendingApproval + holding c pendingSecondReview
  building := holding c building
  success := holding c success
  failed := holding c failed
  onlineAgents := online

variable {equal : Str → Str → Bool} {c : Content} {rows : List (Str × Nat)}

theorem get_eq (hequal : IsCollation equal) (hsep : Separates equal) (hplain : Plain c) (h : Groups equal (states c) rows)
    (st : WorkOrderState) : get (stateCounts rows) st.value = holding c st := by
  have hsame : ∀ k ∈ states c, equal st.value k = true ↔ k = st.value := by
    intro k hk
    obtain ⟨st', rfl⟩ := hplain k hk
    exact ⟨fun heq => congrArg value (hsep st st' heq).symm, fun heq => heq ▸ hequal.refl _⟩
  by_cases hrow : st.value ∈ rows.map (·.1)
  · obtain ⟨row, hmem, hkey⟩ := List.mem_map.mp hrow
    have hlookup := lookup_stateCounts (h.nodup hequal) hmem
    rw [hkey] at hlookup
    rw [get, hlookup, Option.getD_some, (h.counted row hmem).2, hkey, holding]
    exact List.countP_congr fun k hk => (hsame k hk).trans decide_eq_true_iff.symm
  · have hlookup : (stateCounts rows).lookup st.value = none :=
      AList.lookup_eq_none.mpr (mt (mem_stateCounts rows _).mp hrow)
    have hnone : holding c st = 0 := by
      refine List.countP_eq_zero.mpr fun k hk hkey => hrow ?_
      obtain rfl := of_decide_eq_true hkey
      obtain ⟨row, hmem, hequals⟩ := h.covered _ hk
      obtain ⟨st', hst'⟩ := hplain row.1 (h.counted row hmem).1
      rw [hst'] at hequals
      rw [← hsep st' st hequals, ← hst']
      exact List.mem_map_of_mem hmem
    rw [get, hlookup, hnone, Option.getD_none]

theorem getStats_eq {K S : Type} (hequal : IsCollation equal) (hsep : Separates equal) (hplain : Plain c)
    (h : Groups equal (states c) rows) (manager : Option (Ws.AgentManager K S)) :
    getStats rows manager = counted c (onlineAgents manager) := by
  have htotal : ((stateCounts rows).entries.map (·.2)).sum = c.orders.length := by
    rw [sum_stateCounts (h.nodup hequal), h.sum_eq hequal, states, List.length_map]
  have hget := get_eq hequal hsep hplain h
  have hfirst : get (stateCounts rows) (str "PENDING_APPROVAL") = holding c pendingApproval := hget pendingApproval
  have hsecond : get (stateCounts rows) (str "PENDING_SECOND_REVIEW") = holding c pendingSecondReview :=
    hget pendingSecondReview
  have hbuilding : get (stateCounts rows) (str "BUILDING") = holding c building := hget building
  have hsuccess : get (stateCounts rows) (str "SUCCESS") = holding c success := hget success
  have hfailed : get (stateCounts rows) (str "FAILED") = holding c failed := hget failed
  rw [getStats, htotal, hfirst, hsecond, hbuilding, hsuccess, hfailed]
  rfl

end Exact

section Run

structure Falls (r r' : StatsResponse) : Prop where
  total : r'.totalOrders = r.totalOrders
  pending : r'.pendingApproval ≤ r.pendingApproval
  building : r'.building ≤ r.building
  success : r'.success ≤ r.success
  failed : r'.failed ≤ r.failed

variable {c c' : Content}

theorem countP_le_of_forall₂ {A : Type} {near : A → A → Prop} {p : A → Bool} {l l' : List A} (h : List.Forall₂ near l l')
    (hp : ∀ a b, near a b → p b = true → p a = true) : l'.countP p ≤ l.countP p := by
  induction h with
  | nil => exact le_rfl
  | cons hab _ ih =>
      have hhead := hp _ _ hab
      rw [List.countP_cons, List.countP_cons]
      split_ifs with hb ha
      · exact Nat.add_le_add_right ih 1
      · exact absurd (hhead hb) ha
      · exact ih.trans (Nat.le_add_right _ _)
      · exact ih

theorem holding_le (h : Leaves c c') {st : WorkOrderState} (hst : st ∉ verdicts) : holding c' st ≤ holding c st := by
  rw [holding, holding, states, states, List.countP_map, List.countP_map]
  refine countP_le_of_forall₂ h.orders fun a b hrow hb => ?_
  have hb : b.state = st.value := of_decide_eq_true hb
  refine decide_eq_true ?_
  rcases hrow.state with hsame | ⟨-, st', -, hst', hverdict, -⟩
  · exact hsame.symm.trans hb
  · rw [value_injective (hst'.symm.trans hb)] at hverdict
    exact absurd hverdict hst

theorem forall_mem_of_forall₂ {A : Type} {near : A → A → Prop} {p : A → Prop} {l l' : List A} (h : List.Forall₂ near l l')
    (hl : ∀ a ∈ l, p a) (hp : ∀ a b, near a b → p a → p b) : ∀ b ∈ l', p b := by
  induction h with
  | nil => exact fun b hb => absurd hb List.not_mem_nil
  | cons hab _ ih =>
      obtain ⟨ha, hl⟩ := List.forall_mem_cons.mp hl
      exact List.forall_mem_cons.mpr ⟨hp _ _ hab ha, ih hl⟩

theorem plain_of_leaves (h : Leaves c c') (hplain : Plain c) : Plain c' := by
  have hbefore : ∀ a ∈ c.orders, ∃ st : WorkOrderState, a.state = st.value := fun a ha =>
    hplain a.state (List.mem_map_of_mem ha)
  refine List.forall_mem_map.mpr (forall_mem_of_forall₂ h.orders hbefore ?_)
  rintro a b hrow ⟨st, hst⟩
  rcases hrow.state with hsame | ⟨-, st', -, hst', -⟩
  · exact ⟨st, hsame.trans hst⟩
  · exact ⟨st', hst'⟩

theorem falls_of_leaves (h : Leaves c c') (online online' : Nat) : Falls (counted c online) (counted c' online') where
  total := h.orders.length_eq.symm
  pending := Nat.add_le_add (holding_le h (by decide)) (holding_le h (by decide))
  building := holding_le h (by decide)
  success := holding_le h (by decide)
  failed := holding_le h (by decide)

theorem stats_run {K S : Type} (site : Site) (s : Server) (es : List Request) {equal : Str → Str → Bool}
    (hequal : IsCollation equal) (hsep : Separates equal) (hplain : Plain s.content) {rows rows' : List (Str × Nat)}
    (hrows : Groups equal (states s.content) rows) (hrows' : Groups equal (states (run site s es).content) rows')
    (manager manager' : Option (Ws.AgentManager K S)) :
    getStats rows manager = counted s.content (onlineAgents manager) ∧
      getStats rows' manager' = counted (run site s es).content (onlineAgents manager') ∧
      Falls (getStats rows manager) (getStats rows' manager') := by
  have hleaves : Leaves s.content (run site s es).content := leaves_run es (leaves_refl _)
  have hbefore := getStats_eq hequal hsep hplain hrows manager
  have hafter := getStats_eq hequal hsep (plain_of_leaves hleaves hplain) hrows' manager'
  refine ⟨hbefore, hafter, ?_⟩
  rw [hbefore, hafter]
  exact falls_of_leaves hleaves _ _

def upper (p : CodePoint) : CodePoint := if 97 ≤ p ∧ p ≤ 122 then p - 32 else p

def caseless (a b : Str) : Bool := a.map upper = b.map upper

theorem caseless_isCollation : IsCollation caseless where
  refl _ := decide_eq_true rfl
  symm h := decide_eq_true (of_decide_eq_true h).symm
  trans h h' := decide_eq_true ((of_decide_eq_true h).trans (of_decide_eq_true h'))

theorem caseless_separates : Separates caseless := by
  intro st st'
  cases st <;> cases st' <;> decide

def unsignedSite : Site where
  hmacSha256 := fun _ _ => []
  sql := Redelivery.exactSql
  app := Callback.lifespan (some Callback.noService) ⟨true, true⟩
  config := none

def unsignedAgree : Request := .callback 0 5 ⟨false, false, .acknowledged, false⟩ Callback.unsignedRequest

theorem run_unsignedAgree :
    (run unsignedSite ⟨Redelivery.firstRound, []⟩ [unsignedAgree]).content = Redelivery.afterFirst := by decide

theorem groups_singleton (state : Str) : Groups caseless [state] [(state, 1)] where
  counted := by
    intro r hr
    obtain rfl := List.mem_singleton.mp hr
    exact ⟨List.mem_singleton_self _, by rw [List.countP_singleton, if_pos (caseless_isCollation.refl state)]⟩
  apart := List.pairwise_singleton _ _
  covered := by
    intro k hk
    obtain rfl := List.mem_singleton.mp hk
    exact ⟨_, List.mem_singleton_self _, caseless_isCollation.refl k⟩

theorem stats_run_unsignedAgree :
    getStats [(str "PENDING_APPROVAL", 1)] (some (Ws.AgentManager.empty : Ws.AgentManager Str Unit)) =
        counted Redelivery.firstRound 0 ∧
      getStats [(str "APPROVED", 1)] (none : Option (Ws.AgentManager Str Unit)) =
        counted (run unsignedSite ⟨Redelivery.firstRound, []⟩ [unsignedAgree]).content 0 ∧
      Falls (getStats [(str "PENDING_APPROVAL", 1)] (some (Ws.AgentManager.empty : Ws.AgentManager Str Unit)))
        (getStats [(str "APPROVED", 1)] (none : Option (Ws.AgentManager Str Unit))) :=
  stats_run unsignedSite ⟨Redelivery.firstRound, []⟩ [unsignedAgree] caseless_isCollation caseless_separates
    (List.forall_mem_singleton.mpr ⟨pendingApproval, rfl⟩) (groups_singleton _)
    (run_unsignedAgree ▸ groups_singleton (str "APPROVED")) _ _

end Run

end Api.Stats
