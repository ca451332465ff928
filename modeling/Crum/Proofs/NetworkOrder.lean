/-
Module: Crum.Proofs.NetworkOrder
Layer: Proofs
Purpose: The order in which the interfaces are listed. The baseline of an interface also takes the
  differences of the interfaces listed before it, so another order gives other baselines and other totals.
  One call is independent of the order exactly when there are no two interfaces or nothing is pending in
  either direction, in exact arithmetic as in wrap-around arithmetic.
Imports: Crum.Lib.Reorder, Crum.Proofs.NetworkRecovery
Trusted boundary: none
Main exports: Network.reorder, OrderIndependent, baselines_pollNetwork, orderIndependent_iff,
  order_changes_totals
Open obligations: none
-/
import Crum.Lib.Reorder
import Crum.Proofs.NetworkRecovery

namespace Crum

open CarryChain Reorder

/-! ### The same computer with its interfaces in another order -/

section Order

variable {α : Type}

/-- The interfaces in another order, together with their baselines. -/
def Network.reorder (net : Network α) (σ : Equiv.Perm (Fin net.entries.length)) : Network α where
  entries := Reorder.reorder net.entries σ

/-- What the refreshes deliver when the interfaces stand in that order. -/
def reorderReads {n : Nat} (fresh : Nat → NetworkIF α) (σ : Equiv.Perm (Fin n)) : Nat → NetworkIF α :=
  fun i => if hi : i < n then fresh (σ ⟨i, hi⟩) else fresh i

@[simp] theorem reorderReads_val {n : Nat} (fresh : Nat → NetworkIF α) (σ : Equiv.Perm (Fin n))
    (i : Fin n) : reorderReads fresh σ i = fresh (σ i) := by
  simp [reorderReads]

theorem reorderReads_of_le_one {n : Nat} (hn : n ≤ 1) (fresh : Nat → NetworkIF α)
    (σ : Equiv.Perm (Fin n)) : reorderReads fresh σ = fresh := by
  have : Subsingleton (Fin n) := Fin.subsingleton_iff_le_one.mpr hn
  funext i
  rw [reorderReads]
  split
  · next hi => exact congrArg (fun j : Fin n => fresh j) (Subsingleton.elim (σ ⟨i, hi⟩) ⟨i, hi⟩)
  · rfl

end Order

variable {α : Type} [LawfulJavaLong α]

/-- One call stores the same traffic whatever the order of the interfaces, and the baselines that it
leaves are the same up to that order. -/
def OrderIndependent (net : Network α) (fresh : Nat → NetworkIF α) : Prop :=
  ∀ (σ : Equiv.Perm (Fin net.entries.length)) calendar serialNum table result result',
    getNetworkData calendar serialNum net fresh table = .ok result →
    getNetworkData calendar serialNum (net.reorder σ) (reorderReads fresh σ) table = .ok result' →
    (∃ row row', result.2.rows = table.rows ++ [row] ∧ result'.2.rows = table.rows ++ [row'] ∧
      ∀ dir, row'.traffic dir = row.traffic dir) ∧
    ∀ dir (i : Fin net.entries.length),
      (result'.1.baselines dir)[i.val]? = (result.1.baselines dir)[(σ i).val]?

/-- The difference of one interface. -/
def difference (dir : Direction) (net : Network α) (fresh : Nat → NetworkIF α)
    (i : Fin net.entries.length) : α :=
  (fresh i).counter dir - (net.entries.get i).baseline dir

theorem pending_eq_ofFn (dir : Direction) (net : Network α) (fresh : Nat → NetworkIF α) :
    pending dir fresh net.entries = List.ofFn (difference dir net fresh) := by
  apply List.ext_getElem
  · simp
  · intro i hi hi'
    simp [pending, difference]

/-- In another order the same differences are pending. -/
theorem pending_reorder (dir : Direction) (net : Network α) (fresh : Nat → NetworkIF α)
    (σ : Equiv.Perm (Fin net.entries.length)) :
    pending dir (reorderReads fresh σ) (net.reorder σ).entries =
      List.ofFn (difference dir net fresh ∘ σ) := by
  apply List.ext_getElem
  · simp [Network.reorder]
  · intro i hi hi'
    have hlt : i < net.entries.length := by simpa using hi'
    have hread : reorderReads fresh σ i = fresh (σ ⟨i, hlt⟩) := reorderReads_val fresh σ ⟨i, hlt⟩
    simp [pending, difference, hread, Network.reorder, Reorder.reorder]

/-- The baseline of an interface ends up at its counter and the differences of all earlier interfaces. -/
theorem baselines_pollNetwork (dir : Direction) (net : Network α) (fresh : Nat → NetworkIF α)
    {i : Nat} (hi : i < net.entries.length) :
    ((pollNetwork net fresh).2.baselines dir)[i]? =
      some ((fresh i).counter dir + ((pending dir fresh net.entries).take i).sum) := by
  have hi' : i < (pollNetwork net fresh).2.entries.length := by
    rw [pollNetwork_length]
    exact hi
  have hleft := congrArg (fun ds : List α => ds[i]?) (pending_pollNetwork dir net fresh)
  simp only [getElem?_leftover, zero_add] at hleft
  rw [pending, pending, List.getElem?_mapIdx, List.getElem?_mapIdx, List.getElem?_eq_getElem hi,
    List.getElem?_eq_getElem hi', Option.map_some, Option.map_some, Option.map_some,
    Option.some.injEq] at hleft
  rw [Network.baselines_eq, List.getElem?_map, List.getElem?_eq_getElem hi', Option.map_some,
    Option.some.injEq]
  rw [sub_eq_iff_eq_add] at hleft
  rw [pending, hleft]
  abel

/-- A call on an empty table returns. -/
theorem getNetworkData_empty (calendar : Int) (serialNum : String) (net : Network α)
    (fresh : Nat → NetworkIF α) :
    ∃ result, getNetworkData calendar serialNum net fresh .empty = .ok result := by
  have hnew : (networkRow calendar serialNum (pollNetwork net fresh).1).key ∉
      (KeyedTable.empty : NetworkTable α).rows.map NetworkRow.key := by simp
  rcases KeyedTable.insert_of_notMem hnew with ⟨table, htable⟩
  refine ⟨((pollNetwork net fresh).2, table), ?_⟩
  rw [getNetworkData_eq_ok_iff]
  rw [KeyedTable.insert_eq_some_iff] at htable
  exact ⟨htable.1, rfl, htable.2⟩

/-! ### When the order does not matter -/

/-- If the order of two or more interfaces does not matter, nothing is pending. -/
theorem OrderIndependent.pending_zero {net : Network α} {fresh : Nat → NetworkIF α}
    (h : OrderIndependent net fresh) :
    net.entries.length ≤ 1 ∨ ∀ dir, ∀ d ∈ pending dir fresh net.entries, d = 0 := by
  have hbefore : ∀ dir (σ : Equiv.Perm (Fin net.entries.length)) (i : Fin net.entries.length),
      ((List.ofFn (difference dir net fresh ∘ σ)).take i).sum =
        ((List.ofFn (difference dir net fresh)).take (σ i)).sum := by
    intro dir σ i
    rcases getNetworkData_empty 0 "" net fresh with ⟨result, hcall⟩
    rcases getNetworkData_empty 0 "" (net.reorder σ) (reorderReads fresh σ) with ⟨result', hcall'⟩
    have hbase := (h σ 0 "" .empty result result' hcall hcall').2 dir i
    have hi : i.val < (net.reorder σ).entries.length := by simp [Network.reorder]
    rw [(getNetworkData_eq_ok_iff.mp hcall).2.1, (getNetworkData_eq_ok_iff.mp hcall').2.1,
      baselines_pollNetwork dir _ _ hi, baselines_pollNetwork dir _ _ (σ i).isLt, reorderReads_val,
      Option.some.injEq, add_right_inj, pending_reorder, pending_eq_ofFn] at hbase
    exact hbase
  by_cases hlength : net.entries.length ≤ 1
  · exact Or.inl hlength
  · right
    intro dir d hd
    rw [pending_eq_ofFn, List.mem_ofFn] at hd
    rcases hd with ⟨i, rfl⟩
    exact ((sums_before_order_free (hbefore dir)).resolve_left hlength) i

/-- With at most one interface there is one order. -/
theorem orderIndependent_of_le_one {net : Network α} (hlength : net.entries.length ≤ 1)
    (fresh : Nat → NetworkIF α) : OrderIndependent net fresh := by
  intro σ calendar serialNum table result result' hcall hcall'
  have hnet : net.reorder σ = net := by
    rw [Network.reorder, reorder_of_length_le_one hlength]
  have hfix : ∀ i, σ i = i := by
    have : Subsingleton (Fin net.entries.length) := Fin.subsingleton_iff_le_one.mpr hlength
    exact fun i => Subsingleton.elim _ _
  rw [hnet, reorderReads_of_le_one hlength] at hcall'
  rcases getNetworkData_eq_ok_iff.mp hcall with ⟨-, hstatic, hrows⟩
  rcases getNetworkData_eq_ok_iff.mp hcall' with ⟨-, hstatic', hrows'⟩
  refine ⟨⟨_, _, hrows, hrows', fun dir => rfl⟩, ?_⟩
  intro dir i
  rw [hstatic, hstatic', hfix]

/-- When nothing is pending, every order stores zeros and keeps the baselines. -/
theorem orderIndependent_of_settled {net : Network α} {fresh : Nat → NetworkIF α}
    (hsettled : ∀ dir, ∀ d ∈ pending dir fresh net.entries, d = 0) : OrderIndependent net fresh := by
  intro σ calendar serialNum table result result' hcall hcall'
  have hsettled' : ∀ dir, ∀ d ∈ pending dir (reorderReads fresh σ) (net.reorder σ).entries, d = 0 := by
    intro dir d hd
    rw [pending_reorder, List.mem_ofFn] at hd
    rcases hd with ⟨i, rfl⟩
    apply hsettled dir
    rw [pending_eq_ofFn, List.mem_ofFn]
    exact ⟨σ i, rfl⟩
  rcases getNetworkData_eq_ok_iff.mp hcall with ⟨-, -, hrows⟩
  rcases getNetworkData_eq_ok_iff.mp hcall' with ⟨-, -, hrows'⟩
  refine ⟨⟨_, _, hrows, hrows', ?_⟩, ?_⟩
  · intro dir
    rw [(settled_call (hsettled dir) hcall).1, (settled_call (hsettled' dir) hcall').1]
  · intro dir i
    rw [(settled_call (hsettled dir) hcall).2, (settled_call (hsettled' dir) hcall').2,
      Network.baselines_eq, Network.baselines_eq, List.getElem?_map, List.getElem?_map]
    congr 1
    exact getElem?_reorder net.entries σ i

/-- One call is independent of the order of the interfaces if and only if there are no two of them or
every counter equals its baseline. -/
theorem orderIndependent_iff (net : Network α) (fresh : Nat → NetworkIF α) :
    OrderIndependent net fresh ↔
      net.entries.length ≤ 1 ∨ ∀ dir (i : Fin net.entries.length),
        (fresh i).counter dir = (net.entries.get i).baseline dir := by
  have hsettled : (∀ dir, ∀ d ∈ pending dir fresh net.entries, d = 0) ↔
      ∀ dir (i : Fin net.entries.length),
        (fresh i).counter dir = (net.entries.get i).baseline dir := by
    simp only [pending_eq_ofFn, List.forall_mem_ofFn_iff, difference, sub_eq_zero]
  rw [← hsettled]
  constructor
  · exact fun h => h.pending_zero
  · rintro (hlength | hzero)
    · exact orderIndependent_of_le_one hlength fresh
    · exact orderIndependent_of_settled hzero

/-- Two interfaces with counters at zero. -/
def twoInterfaces : Network Int64 where
  entries := [⟨⟨0, 0, [], ""⟩, 0, 0⟩, ⟨⟨0, 0, [], ""⟩, 0, 0⟩]

/-- The first of them has received 1000000 bytes. -/
def firstReceives (i : Nat) : NetworkIF Int64 :=
  if i = 0 then ⟨1000000, 0, [], ""⟩ else ⟨0, 0, [], ""⟩

/-- Listed first, the interface that has received is counted twice; listed last, it is counted once. -/
theorem order_changes_totals :
    (networkRow 0 "S" (pollNetwork twoInterfaces firstReceives).1).inboundTraffic = 16 ∧
      (networkRow 0 "S" (pollNetwork (twoInterfaces.reorder (Equiv.swap ⟨0, by decide⟩ ⟨1, by decide⟩))
        (reorderReads firstReceives
          (Equiv.swap (⟨0, by decide⟩ : Fin twoInterfaces.entries.length) ⟨1, by decide⟩))).1).inboundTraffic
        = 8 ∧
      ¬ OrderIndependent twoInterfaces firstReceives := by
  refine ⟨by decide, by decide, ?_⟩
  intro h
  have hzero := h.pending_zero.resolve_left (by decide) .inbound 1000000 (by decide)
  revert hzero
  decide

end Crum
