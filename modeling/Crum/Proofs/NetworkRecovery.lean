/-
Module: Crum.Proofs.NetworkRecovery
Layer: Proofs
Purpose: The network readings recover by themselves. While the counters stand still, every call maps the
  pending differences to their leftover, so the disturbance moves strictly down the list of interfaces
  and is gone after as many calls as there are interfaces. This holds in wrap-around arithmetic, for
  baselines in any state.
Imports: Crum.Proofs.NetworkPoll
Trusted boundary: none
Main exports: pending_after, settled_after, settled_call, network_recovers
Open obligations: none
-/
import Crum.Proofs.NetworkPoll

namespace Crum

open CarryChain

section Generic

variable {α : Type} [LawfulJavaLong α]

/-- The first `calls` calls read the counters of `still` in this direction. -/
def StandStill (dir : Direction) (net : Network α) (reads : Nat → Nat → NetworkIF α)
    (still : Nat → NetworkIF α) (calls : Nat) : Prop :=
  ∀ t < calls, ∀ i < net.entries.length, (reads t i).counter dir = (still i).counter dir

/-- While the counters stand still, `k` calls apply the leftover map `k` times. -/
theorem pending_after {dir : Direction} {net : Network α} {reads : Nat → Nat → NetworkIF α}
    {still : Nat → NetworkIF α} {k : Nat} (hstill : StandStill dir net reads still k) :
    pending dir still (net.after reads k).entries =
      (leftover 0)^[k] (pending dir still net.entries) := by
  induction k with
  | zero => rfl
  | succ k ih =>
      have hread : ∀ entries : List (NetworkEntry α), entries.length = net.entries.length →
          pending dir still entries = pending dir (reads k) entries := by
        intro entries hlength
        apply pending_congr
        intro i hi
        exact (hstill k (Nat.lt_succ_self k) i (hlength ▸ hi)).symm
      have hpast : StandStill dir net reads still k := fun t ht => hstill t (Nat.lt_succ_of_lt ht)
      have hlength := net.after_length reads k
      rw [Function.iterate_succ_apply', ← ih hpast, Network.after, hread _ hlength,
        hread _ ((pollNetwork_length _ _).trans hlength), pending_pollNetwork]

/-- After `k` calls the first `k` baselines are the counters. -/
theorem baselines_after {dir : Direction} {net : Network α} {reads : Nat → Nat → NetworkIF α}
    {still : Nat → NetworkIF α} {k i : Nat} (hstill : StandStill dir net reads still k)
    (hi : i < min k net.entries.length) :
    ((net.after reads k).baselines dir)[i]? = some ((still i).counter dir) := by
  rcases lt_min_iff.mp hi with ⟨hik, hin⟩
  have hlen : i < (net.after reads k).entries.length := by
    rw [Network.after_length]
    exact hin
  have hzero : LeadingZeros k (pending dir still (net.after reads k).entries) := by
    rw [pending_after hstill]
    exact leadingZeros_iterate k _
  have hentry : (still i).counter dir - (net.after reads k).entries[i].baseline dir = 0 := by
    apply hzero
    have hget : (pending dir still (net.after reads k).entries)[i]? =
        some ((still i).counter dir - (net.after reads k).entries[i].baseline dir) := by
      simp [pending, List.getElem?_eq_getElem hlen]
    rw [← List.getElem?_take_of_lt hik] at hget
    exact List.mem_of_getElem? hget
  rw [Network.baselines_eq, List.getElem?_map, List.getElem?_eq_getElem hlen, Option.map_some,
    sub_eq_zero.mp hentry]

/-- After as many calls as there are interfaces, nothing is pending for a call that reads the same. -/
theorem settled_after {dir : Direction} {net : Network α} {reads : Nat → Nat → NetworkIF α}
    {still fresh : Nat → NetworkIF α} {k : Nat} (hstill : StandStill dir net reads still k)
    (hk : net.entries.length ≤ k)
    (hfresh : ∀ i < net.entries.length, (fresh i).counter dir = (still i).counter dir) :
    ∀ d ∈ pending dir fresh (net.after reads k).entries, d = 0 := by
  have hzero := leadingZeros_iterate k (pending dir still net.entries)
  rw [← pending_after hstill] at hzero
  have hsame : pending dir fresh (net.after reads k).entries =
      pending dir still (net.after reads k).entries := by
    apply pending_congr
    intro i hi
    rw [Network.after_length] at hi
    exact hfresh i hi
  rw [hsame]
  apply hzero.all
  rw [length_pending, Network.after_length]
  exact hk

/-- A call with nothing pending totals nothing. -/
theorem settled_total (dir : Direction) (net : Network α) {fresh : Nat → NetworkIF α}
    (hsettled : ∀ d ∈ pending dir fresh net.entries, d = 0) :
    (pollNetwork net fresh).1.total dir = 0 := by
  rw [total_pollNetwork]
  exact clampedSum_zeros LawfulJavaLong.isNeg_zero hsettled

/-- A call with nothing pending leaves the baselines as they are. -/
theorem settled_baselines (dir : Direction) (net : Network α) {fresh : Nat → NetworkIF α}
    (hsettled : ∀ d ∈ pending dir fresh net.entries, d = 0) :
    (pollNetwork net fresh).2.baselines dir = net.baselines dir := by
  have hafter : ∀ d ∈ pending dir fresh (pollNetwork net fresh).2.entries, d = 0 := by
    rw [pending_pollNetwork, leftover_all_zero_iff]
    exact fun d hd => hsettled d (List.mem_of_mem_dropLast hd)
  rw [pending_all_zero_iff] at hsettled hafter
  rw [Network.baselines_eq, Network.baselines_eq, hafter, hsettled, pollNetwork_length]

/-- The traffic column of a direction is zero when its total is. -/
theorem networkRow_traffic_zero (dir : Direction) (calendar : Int) (serialNum : String)
    {totals : NetworkTotals α} (hzero : totals.total dir = 0) :
    (networkRow calendar serialNum totals).traffic dir = 0 := by
  cases dir
  · have htotal : totals.totalInbound = 0 := hzero
    simp only [NetworkRow.traffic, networkRow, htotal, LawfulJavaLong.zero_mul,
      LawfulJavaLong.zero_quot]
  · have htotal : totals.totalOutbound = 0 := hzero
    simp only [NetworkRow.traffic, networkRow, htotal, LawfulJavaLong.zero_mul,
      LawfulJavaLong.zero_quot]

/-- A call with nothing pending stores zeros and changes no baseline. -/
theorem settled_call {dir : Direction} {net : Network α} {fresh : Nat → NetworkIF α}
    (hsettled : ∀ d ∈ pending dir fresh net.entries, d = 0) {calendar : Int} {serialNum : String}
    {table : NetworkTable α} {result : Network α × NetworkTable α}
    (hcall : getNetworkData calendar serialNum net fresh table = .ok result) :
    (networkRow calendar serialNum (pollNetwork net fresh).1).traffic dir = 0 ∧
      result.1.baselines dir = net.baselines dir := by
  rcases getNetworkData_eq_ok_iff.mp hcall with ⟨-, hnet, -⟩
  rw [hnet]
  exact ⟨networkRow_traffic_zero dir calendar serialNum (settled_total dir net hsettled),
    settled_baselines dir net hsettled⟩

end Generic

/-- Interfaces that show the counters `received` and `sent`. -/
def showing (received sent : Nat → Int64) (i : Nat) : NetworkIF Int64 where
  bytesRecv := received i
  bytesSent := sent i
  ipv4addr := []
  macaddr := ""

/-- From any baselines, in 64-bit arithmetic: after `k` calls that all read the counters `received` and
`sent`, the first `k` baselines are those counters. If `k` is at least the number of interfaces, a further
call that reads them inserts one row with no traffic and leaves all baselines as they are. -/
theorem network_recovers (net : Network Int64) (received sent : Nat → Int64)
    (reads : Nat → Nat → NetworkIF Int64) (k : Nat)
    (hread : ∀ t < k, ∀ i < net.entries.length,
      (reads t i).bytesRecv = received i ∧ (reads t i).bytesSent = sent i) :
    (∀ i < min k net.entries.length,
      (net.after reads k).baselineBytesIn[i]? = some (received i) ∧
      (net.after reads k).baselineBytesOut[i]? = some (sent i)) ∧
    (net.entries.length ≤ k → ∀ fresh : Nat → NetworkIF Int64,
      (∀ i < net.entries.length, (fresh i).bytesRecv = received i ∧ (fresh i).bytesSent = sent i) →
      ∀ calendar serialNum table result,
        getNetworkData calendar serialNum (net.after reads k) fresh table = .ok result →
          (∃ row, result.2.rows = table.rows ++ [row] ∧
            row.inboundTraffic = 0 ∧ row.outboundTraffic = 0) ∧
          result.1.baselineBytesIn = (net.after reads k).baselineBytesIn ∧
          result.1.baselineBytesOut = (net.after reads k).baselineBytesOut) := by
  have hin : StandStill .inbound net reads (showing received sent) k :=
    fun t ht i hi => (hread t ht i hi).1
  have hout : StandStill .outbound net reads (showing received sent) k :=
    fun t ht i hi => (hread t ht i hi).2
  constructor
  · intro i hi
    exact ⟨baselines_after hin hi, baselines_after hout hi⟩
  · intro hk fresh hfresh calendar serialNum table result hcall
    rcases settled_call (settled_after hin hk fun i hi => (hfresh i hi).1) hcall with
      ⟨hzeroIn, hbaseIn⟩
    rcases settled_call (settled_after hout hk fun i hi => (hfresh i hi).2) hcall with
      ⟨hzeroOut, hbaseOut⟩
    rcases getNetworkData_eq_ok_iff.mp hcall with ⟨-, -, hrows⟩
    exact ⟨⟨_, hrows, hzeroIn, hzeroOut⟩, hbaseIn, hbaseOut⟩

/-- Two interfaces whose counters were reset below their baselines. -/
def resetNetwork : Network Int64 :=
  { entries := [⟨⟨5, 1, [], ""⟩, 900, 70⟩, ⟨⟨6, 2, [], ""⟩, 800, 80⟩] }

/-- They stand still at 5 and 6 received bytes, 1 and 2 sent ones. -/
def resetReads (_ i : Nat) : NetworkIF Int64 := if i = 0 then ⟨5, 1, [], ""⟩ else ⟨6, 2, [], ""⟩

/-- The first call rights the first baselines and the second one all of them; the third stores a row without
traffic and changes no baseline. -/
theorem network_recovers_after_reset :
    let state := networkStates resetNetwork resetReads
    CallsCompleted (fun t => t) "S" resetReads 3 state ∧
      (state 1).1.baselineBytesIn[0]? = some 5 ∧ (state 2).1.baselineBytesOut[1]? = some 2 ∧
      (∃ row, (state 3).2.rows = (state 2).2.rows ++ [row] ∧
        row.inboundTraffic = 0 ∧ row.outboundTraffic = 0) ∧
      (state 3).1.baselineBytesIn = (state 2).1.baselineBytesIn ∧
      (state 3).1.baselineBytesOut = (state 2).1.baselineBytesOut := by
  intro state
  have hcalls : CallsCompleted (fun t => t) "S" resetReads 3 state := by
    intro t ht
    interval_cases t <;> rfl
  have hread : ∀ t i, (resetReads t i).bytesRecv = (if i = 0 then 5 else 6) ∧
      (resetReads t i).bytesSent = (if i = 0 then 1 else 2) := by
    intro t i
    unfold resetReads
    split <;> simp
  have hone := network_recovers resetNetwork (fun i => if i = 0 then 5 else 6)
    (fun i => if i = 0 then 1 else 2) resetReads 1 fun t _ i _ => hread t i
  have htwo := network_recovers resetNetwork (fun i => if i = 0 then 5 else 6)
    (fun i => if i = 0 then 1 else 2) resetReads 2 fun t _ i _ => hread t i
  have hfirst : (state 1).1 = resetNetwork.after resetReads 1 := (hcalls.after (by decide)).1
  have hsecond : (state 2).1 = resetNetwork.after resetReads 2 := (hcalls.after (by decide)).1
  rw [← hfirst] at hone
  rw [← hsecond] at htwo
  exact ⟨hcalls, (hone.1 0 (by decide)).1, (htwo.1 1 (by decide)).2,
    htwo.2 le_rfl (resetReads 2) (fun i _ => hread 2 i) _ _ _ _ (hcalls 2 (by decide))⟩

end Crum
