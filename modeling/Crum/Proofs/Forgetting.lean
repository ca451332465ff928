/-
Module: Crum.Proofs.Forgetting
Layer: Proofs
Purpose: What a round stores depends on a bounded number of readings. Two states of the program on one
  computer may differ in everything that the gathering methods change: the counters and ticks they start
  from and what OSHI has cached. After two rounds, and one for each network interface, they have read the
  same values into all of it, and every later round inserts the same rows.
Imports: Crum.Lib.CarryChain, Crum.Proofs.MainLoop
Trusted boundary: none
Main exports: gap, Synced, SameComputer, Forgotten, rounds_forget
Open obligations: none
-/
import Crum.Lib.CarryChain
import Crum.Proofs.MainLoop

namespace Crum

open CarryChain JavaRuntime Run

/-! ### The network -/

section Network

variable {α : Type} [LawfulJavaLong α]

/-- By how much the baselines of two networks differ. -/
def gap (dir : Direction) (net net' : Network α) : List α :=
  List.zipWith (fun entry entry' => entry'.baseline dir - entry.baseline dir) net.entries net'.entries

/-- What two networks are to account for differs by the gap, whatever is read. -/
theorem gap_eq_pending (dir : Direction) (fresh : Nat → NetworkIF α) (net net' : Network α) :
    gap dir net net' = List.zipWith (· - ·) (pending dir fresh net.entries) (pending dir fresh net'.entries) := by
  apply List.ext_getElem
  · simp [gap]
  · intro i hi hi'
    simp only [gap, pending, List.getElem_zipWith, List.getElem_mapIdx]
    abel

/-- A call that reads the same leaves the leftover of the gap. -/
theorem gap_pollNetwork (dir : Direction) (fresh : Nat → NetworkIF α) (net net' : Network α) :
    gap dir (pollNetwork net fresh).2 (pollNetwork net' fresh).2 = leftover 0 (gap dir net net') := by
  rw [gap_eq_pending dir fresh, pending_pollNetwork, pending_pollNetwork, leftover_sub, sub_zero,
    ← gap_eq_pending]

/-- The totals and texts of a loop depend on the baselines alone, not on what the interfaces have cached. -/
theorem pollInterfaces_congr (fresh : Nat → NetworkIF α) (totals : NetworkTotals α)
    {entries entries' : List (NetworkEntry α)}
    (h : entries.map (fun entry => (entry.baselineBytesIn, entry.baselineBytesOut)) =
      entries'.map fun entry => (entry.baselineBytesIn, entry.baselineBytesOut)) :
    (pollInterfaces fresh totals entries).1 = (pollInterfaces fresh totals entries').1 := by
  induction entries generalizing fresh totals entries' with
  | nil =>
      rw [List.map_nil, eq_comm, List.map_eq_nil_iff] at h
      rw [h]
  | cons entry entries ih =>
      cases entries' with
      | nil => cases h
      | cons entry' entries' =>
          rw [List.map_cons, List.map_cons, List.cons.injEq, Prod.mk.injEq] at h
          rcases h with ⟨⟨hin, hout⟩, hrest⟩
          have hhead : (pollInterface (fresh 0) totals entry).1 =
              (pollInterface (fresh 0) totals entry').1 := by
            simp only [pollInterface, hin, hout]
            rfl
          rw [pollInterfaces, pollInterfaces, hhead]
          exact ih _ _ hrest

/-- Without a gap two networks total the same. -/
theorem totals_of_gap {net net' : Network α} (hlength : net.entries.length = net'.entries.length)
    (hgap : ∀ dir, ∀ d ∈ gap dir net net', d = 0) (fresh : Nat → NetworkIF α) :
    (pollNetwork net fresh).1 = (pollNetwork net' fresh).1 := by
  apply pollInterfaces_congr
  have hentry : ∀ (dir : Direction) (i : Nat) (hi : i < net.entries.length)
      (hi' : i < net'.entries.length), net.entries[i].baseline dir = net'.entries[i].baseline dir := by
    intro dir i hi hi'
    have hlt : i < (gap dir net net').length := by
      rw [gap, List.length_zipWith]
      exact lt_min hi hi'
    have hzero := hgap dir (gap dir net net')[i] (List.getElem_mem hlt)
    simp only [gap, List.getElem_zipWith] at hzero
    exact (sub_eq_zero.mp hzero).symm
  apply List.ext_getElem
  · simpa using hlength
  · intro i hi hi'
    rw [List.length_map] at hi hi'
    rw [List.getElem_map, List.getElem_map, Prod.mk.injEq]
    exact ⟨hentry .inbound i hi hi', hentry .outbound i hi hi'⟩

end Network

/-! ### The drives -/

section Drives

variable {α : Type}

/-- What no call changes: UUID and mount point of every file store, model and partitions of every disk, and
the map. -/
structure DriveSetup where
  stores : List (String × String)
  disks : List (String × List HWPartition)
  map : StoreMap

def Disk.setup (disk : Disk α) : DriveSetup where
  stores := disk.entries.map fun entry => (entry.store.uuid, entry.store.mount)
  disks := disk.disks.map fun hw => (hw.model, hw.partitions)
  map := disk.fileStoresToDisks

/-- One set of drives, of which OSHI has cached the same values for the file stores in `P` and their
disks. -/
structure Synced (P : Nat → Prop) (disk disk' : Disk α) : Prop where
  setup : disk.setup = disk'.setup
  stores : ∀ i, P i → (disk.entries[i]?).map (·.store) = (disk'.entries[i]?).map (·.store)
  disks : ∀ i, P i → ∀ j, disk.fileStoresToDisks i = some j → disk.disks[j]? = disk'.disks[j]?

theorem Synced.mono {P Q : Nat → Prop} {disk disk' : Disk α} (h : Synced P disk disk')
    (hsub : ∀ i, Q i → P i) : Synced Q disk disk' where
  setup := h.setup
  stores i hi := h.stores i (hsub i hi)
  disks i hi := h.disks i (hsub i hi)

theorem Disk.length_eq_of_setup {disk disk' : Disk α} (h : disk.setup = disk'.setup) :
    disk.entries.length = disk'.entries.length := by
  simpa [Disk.setup] using congrArg (·.stores.length) h

theorem Disk.map_eq_of_setup {disk disk' : Disk α} (h : disk.setup = disk'.setup) :
    disk.fileStoresToDisks = disk'.fileStoresToDisks :=
  congrArg DriveSetup.map h

/-- File stores with one setup are refreshed to the same cached values. -/
theorem Disk.store_refreshed {disk disk' : Disk α} (h : disk.setup = disk'.setup) {i : Nat}
    {entry entry' : StoreEntry α} (hentry : disk.entries[i]? = some entry)
    (hentry' : disk'.entries[i]? = some entry') (fresh : StoreSpace α) :
    entry.store.updateAttributes fresh = entry'.store.updateAttributes fresh := by
  have hsetup := congrArg (·.stores[i]?) h
  simp only [Disk.setup, List.getElem?_map, hentry, hentry', Option.map_some, Option.some.injEq,
    Prod.mk.injEq] at hsetup
  simp only [OSFileStore.updateAttributes, hsetup.1, hsetup.2]

theorem Disk.disk_refreshed {disk disk' : Disk α} (h : disk.setup = disk'.setup) {j : Nat}
    {hw hw' : HWDiskStore α} (hhw : disk.disks[j]? = some hw) (hhw' : disk'.disks[j]? = some hw')
    (fresh : DiskCounters α) : hw.updateAttributes fresh = hw'.updateAttributes fresh := by
  have hsetup := congrArg (·.disks[j]?) h
  simp only [Disk.setup, List.getElem?_map, hhw, hhw', Option.map_some, Option.some.injEq,
    Prod.mk.injEq] at hsetup
  simp only [HWDiskStore.updateAttributes, hsetup.1, hsetup.2]

variable [JavaLong α] {calendar : Int} {serialNum : String} {samples : Nat → StoreSamples α}

theorem pollStore_setup {k : Nat} {state after : PollState α}
    (h : pollStore calendar serialNum samples k state = .ok after) :
    after.disk.setup = state.disk.setup := by
  rcases pollStore_eq_ok_iff.mp h with ⟨entry, j, currDisk, poll, table, -, -, hdisk, -, -, -, rfl⟩
  simp only [stateAfter, Disk.setup, DriveSetup.mk.injEq, and_true]
  constructor
  · apply map_modify_of_same
    intro entry
    rfl
  · exact map_set_of_same hdisk rfl

/-- Two iterations on drives of one computer find an entry each, and one disk. -/
theorem pollStore_pair {k : Nat} {state after state' after' : PollState α}
    (hsetup : state.disk.setup = state'.disk.setup)
    (hstep : pollStore calendar serialNum samples k state = .ok after)
    (hstep' : pollStore calendar serialNum samples k state' = .ok after') :
    ∃ j entry entry' hw hw' table table', state.disk.fileStoresToDisks k = some j ∧
      state.disk.entries[k]? = some entry ∧ state'.disk.entries[k]? = some entry' ∧
      state.disk.disks[j]? = some hw ∧ state'.disk.disks[j]? = some hw' ∧
      after = stateAfter (samples k) k j hw (measureStore calendar serialNum (samples k) k j entry hw) table
        state ∧
      after' = stateAfter (samples k) k j hw' (measureStore calendar serialNum (samples k) k j entry' hw')
        table' state' := by
  rcases pollStore_eq_ok_iff.mp hstep with ⟨entry, j, hw, poll, table, hentry, hj, hhw, rfl, -, -, hafter⟩
  rcases pollStore_eq_ok_iff.mp hstep' with
    ⟨entry', j', hw', poll', table', hentry', hj', hhw', rfl, -, -, hafter'⟩
  obtain rfl : j = j' := by
    rw [Disk.map_eq_of_setup hsetup, hj'] at hj
    exact (Option.some.inj hj).symm
  exact ⟨j, entry, entry', hw, hw', table, table', hj, hentry, hentry', hhw, hhw', hafter, hafter'⟩

/-- Two iterations that read the same sync their file store and its disk. -/
theorem Synced.step {P : Nat → Prop} {k : Nat} {state after state' after' : PollState α}
    (h : Synced P state.disk state'.disk)
    (hstep : pollStore calendar serialNum samples k state = .ok after)
    (hstep' : pollStore calendar serialNum samples k state' = .ok after') :
    Synced (fun i => P i ∨ i = k) after.disk after'.disk := by
  have hframe := fun (i : Nat) (hik : i ≠ k) => pollStore_frame hstep hik
  have hframe' := fun (i : Nat) (hik : i ≠ k) => pollStore_frame hstep' hik
  have hsetup := h.setup
  have hafter := (pollStore_setup hstep).trans (hsetup.trans (pollStore_setup hstep').symm)
  rcases pollStore_pair hsetup hstep hstep' with
    ⟨j, entry, entry', hw, hw', table, table', hj, hentry, hentry', hhw, hhw', rfl, rfl⟩
  refine ⟨hafter, ?_, ?_⟩
  · intro i hi
    by_cases hik : i = k
    · subst hik
      simp only [stateAfter, getElem?_modify, hentry, hentry', Option.map_some, if_true,
        StoreEntry.afterPoll]
      rw [Disk.store_refreshed hsetup hentry hentry']
    · rw [hframe i hik, hframe' i hik]
      exact h.stores i (hi.resolve_right hik)
  · intro i hi d hd
    simp only [stateAfter] at hd ⊢
    by_cases hjd : j = d
    · subst hjd
      rw [List.getElem?_set_self (List.getElem?_eq_some_iff.mp hhw).1,
        List.getElem?_set_self (List.getElem?_eq_some_iff.mp hhw').1]
      have hrefreshed := Disk.disk_refreshed hsetup hhw hhw' (samples k).second
      exact congrArg some hrefreshed
    · rw [List.getElem?_set_ne hjd, List.getElem?_set_ne hjd]
      rcases hi with hi | rfl
      · exact h.disks i hi d hd
      · rw [hj] at hd
        exact absurd (Option.some.inj hd) hjd

/-- If file store and disk were synced before, its entry agrees after the iteration. -/
theorem Synced.entry_eq {P : Nat → Prop} {k : Nat} {state after state' after' : PollState α}
    (h : Synced P state.disk state'.disk) (hk : P k)
    (hstep : pollStore calendar serialNum samples k state = .ok after)
    (hstep' : pollStore calendar serialNum samples k state' = .ok after') :
    after.disk.entries[k]? = after'.disk.entries[k]? := by
  rcases pollStore_pair h.setup hstep hstep' with
    ⟨j, entry, entry', hw, hw', table, table', hj, hentry, hentry', hhw, hhw', rfl, rfl⟩
  have hstore : entry.store = entry'.store := by simpa [hentry, hentry'] using h.stores k hk
  have hsame : hw = hw' := by simpa [hhw, hhw'] using h.disks k hk j hj
  simp only [stateAfter, getElem?_modify, hentry, hentry', Option.map_some, if_true,
    StoreEntry.afterPoll, hstore, hsame]

/-- If the entry agreed too, the iterations insert the same row. -/
theorem Synced.polled_eq {P : Nat → Prop} {k : Nat} {state after state' after' : PollState α}
    (h : Synced P state.disk state'.disk) (hk : P k)
    (hentries : state.disk.entries[k]? = state'.disk.entries[k]?)
    (hpolled : state.polled = state'.polled)
    (hstep : pollStore calendar serialNum samples k state = .ok after)
    (hstep' : pollStore calendar serialNum samples k state' = .ok after') :
    after.polled = after'.polled := by
  rcases pollStore_pair h.setup hstep hstep' with
    ⟨j, entry, entry', hw, hw', table, table', hj, hentry, hentry', hhw, hhw', rfl, rfl⟩
  obtain rfl : entry = entry' := by
    rw [hentry, hentry'] at hentries
    exact Option.some.inj hentries
  obtain rfl : hw = hw' := by simpa [hhw, hhw'] using h.disks k hk j hj
  simp only [stateAfter, hpolled]

variable {disk disk' : Disk α} {table table' : DiscTable α} {polled polled' : PollState α}

theorem getDiskData_setup (hcall : getDiskData calendar serialNum disk samples table = .ok polled) :
    polled.disk.setup = disk.setup :=
  forRange_invariant (fun _ state => state.disk.setup = disk.setup) rfl
    (fun _ _ _ _ hu hstep => (pollStore_setup hstep).trans hu) hcall

/-- The first call syncs all drives. -/
theorem getDiskData_syncs (hsetup : disk.setup = disk'.setup)
    (hcall : getDiskData calendar serialNum disk samples table = .ok polled)
    (hcall' : getDiskData calendar serialNum disk' samples table' = .ok polled') :
    Synced (· < disk.entries.length) polled.disk polled'.disk := by
  rw [getDiskData, ← Disk.length_eq_of_setup hsetup] at hcall'
  refine forRange_relate (fun k u u' => Synced (· < k) u.disk u'.disk) ?_ ?_ hcall hcall'
  · exact ⟨hsetup, fun i hi => absurd hi (Nat.not_lt_zero i), fun i hi => absurd hi (Nat.not_lt_zero i)⟩
  · intro k _ u u' v v' hu hstep hstep'
    exact (hu.step hstep hstep').mono fun i hi => Nat.lt_succ_iff_lt_or_eq.mp hi

/-- A call from synced drives makes all entries agree. -/
theorem getDiskData_agrees {n : Nat} (hn : n = disk.entries.length) (h : Synced (· < n) disk disk')
    (hcall : getDiskData calendar serialNum disk samples table = .ok polled)
    (hcall' : getDiskData calendar serialNum disk' samples table' = .ok polled') :
    ∀ i < n, polled.disk.entries[i]? = polled'.disk.entries[i]? := by
  rw [getDiskData, ← Disk.length_eq_of_setup h.setup, ← hn] at hcall'
  rw [getDiskData, ← hn] at hcall
  have hall := forRange_relate (fun k u u' => Synced (· < n) u.disk u'.disk ∧
    ∀ i < k, u.disk.entries[i]? = u'.disk.entries[i]?) ⟨h, fun i hi => absurd hi (Nat.not_lt_zero i)⟩
    ?_ hcall hcall'
  · exact hall.2
  · rintro k hk u u' v v' ⟨hsync, hpast⟩ hstep hstep'
    refine ⟨(hsync.step hstep hstep').mono fun i hi => Or.inl hi, ?_⟩
    intro i hi
    rcases Nat.lt_succ_iff_lt_or_eq.mp hi with hlt | rfl
    · rw [pollStore_frame hstep hlt.ne, pollStore_frame hstep' hlt.ne]
      exact hpast i hlt
    · exact hsync.entry_eq hk hstep hstep'

/-- A call from synced drives whose entries agree inserts the same rows. -/
theorem getDiskData_same {n : Nat} (hn : n = disk.entries.length) (h : Synced (· < n) disk disk')
    (hentries : ∀ i < n, disk.entries[i]? = disk'.entries[i]?)
    (hcall : getDiskData calendar serialNum disk samples table = .ok polled)
    (hcall' : getDiskData calendar serialNum disk' samples table' = .ok polled') :
    polled.polled = polled'.polled := by
  rw [getDiskData, ← Disk.length_eq_of_setup h.setup, ← hn] at hcall'
  rw [getDiskData, ← hn] at hcall
  have hall := forRange_relate (fun _ u u' => Synced (· < n) u.disk u'.disk ∧
    (∀ i < n, u.disk.entries[i]? = u'.disk.entries[i]?) ∧ u.polled = u'.polled)
    ⟨h, hentries, rfl⟩ ?_ hcall hcall'
  · exact hall.2.2
  · rintro k hk u u' v v' ⟨hsync, hsame, hpolled⟩ hstep hstep'
    refine ⟨(hsync.step hstep hstep').mono fun i hi => Or.inl hi, ?_,
      hsync.polled_eq hk (hsame k hk) hpolled hstep hstep'⟩
    intro i hi
    by_cases hik : i = k
    · subst hik
      exact hsync.entry_eq hk hstep hstep'
    · rw [pollStore_frame hstep hik, pollStore_frame hstep' hik]
      exact hsame i hi

end Drives

/-! ### Whole runs -/

variable {α : Type} [LawfulJavaLong α]

/-- Two states of the program on one computer: what it found at its start agrees, whatever its methods
change may differ. -/
structure SameComputer (s s' : CrumState α) : Prop where
  serialNum : s.serialNum = s'.serialNum
  memoryData : s.memoryData = s'.memoryData
  drives : s.diskData.setup = s'.diskData.setup
  interfaces : s.networkData.entries.length = s'.networkData.entries.length

/-- How far two states have come to agree after the rounds `past`. -/
structure Forgotten (past : List (Round α)) (s s' : CrumState α) : Prop where
  same : SameComputer s s'
  ticks : 1 ≤ past.length → s.cpuData.prevLoadTicks = s'.cpuData.prevLoadTicks
  synced : 1 ≤ past.length → Synced (· < s.diskData.entries.length) s.diskData s'.diskData
  entries : 2 ≤ past.length → ∀ i < s.diskData.entries.length,
    s.diskData.entries[i]? = s'.diskData.entries[i]?
  network : ∀ dir, LeadingZeros past.length (gap dir s.networkData s'.networkData)

theorem Forgotten.start {s s' : CrumState α} (h : SameComputer s s') : Forgotten [] s s' where
  same := h
  ticks hlong := absurd hlong (by simp)
  synced hlong := absurd hlong (by simp)
  entries hlong := absurd hlong (by simp)
  network _ := by simp [LeadingZeros]

theorem Forgotten.step {platform : Platform} {past : List (Round α)} {s s' t t' : CrumState α}
    {round : Round α} (h : Forgotten past s s') (hstep : iteration platform s round = .ok t)
    (hstep' : iteration platform s' round = .ok t') : Forgotten (past ++ [round]) t t' := by
  rcases iteration_calls hstep with
    ⟨polled, cpu, ram, network, hdisk, hcpu, -, hnetwork, hserial, hdiskData, hcpuData, hmemory, hnet⟩
  rcases iteration_calls hstep' with
    ⟨polled', cpu', ram', network', hdisk', hcpu', -, hnetwork', hserial', hdiskData', hcpuData', hmemory',
      hnet'⟩
  rw [← h.same.serialNum] at hdisk'
  have hsetup : polled.disk.setup = polled'.disk.setup :=
    (getDiskData_setup hdisk).trans (h.same.drives.trans (getDiskData_setup hdisk').symm)
  have hlength : polled.disk.entries.length = s.diskData.entries.length :=
    Disk.length_eq_of_setup (getDiskData_setup hdisk)
  rw [(getNetworkData_eq_ok_iff.mp hnetwork).2.1] at hnet
  rw [(getNetworkData_eq_ok_iff.mp hnetwork').2.1] at hnet'
  constructor
  · constructor
    · rw [hserial, hserial', h.same.serialNum]
    · rw [hmemory, hmemory', h.same.memoryData]
    · rw [hdiskData, hdiskData', hsetup]
    · rw [hnet, hnet', pollNetwork_length, pollNetwork_length, h.same.interfaces]
  · intro _
    rw [hcpuData, hcpuData', (getCPUData_spec hcpu).1, (getCPUData_spec hcpu').1]
  · intro _
    rw [hdiskData, hdiskData', hlength]
    exact getDiskData_syncs h.same.drives hdisk hdisk'
  · intro hlong
    rw [List.length_append, List.length_singleton] at hlong
    rw [hdiskData, hdiskData', hlength]
    exact getDiskData_agrees rfl (h.synced (by omega)) hdisk hdisk'
  · intro dir
    rw [hnet, hnet', gap_pollNetwork, List.length_append, List.length_singleton]
    exact leadingZeros_leftover (h.network dir)

/-- The rows that two calls of the gathering methods append are the same. -/
structure SameRows (before after before' after' : Database α) : Prop where
  disc : ∃ rows, after.disc.rows = before.disc.rows ++ rows ∧ after'.disc.rows = before'.disc.rows ++ rows
  cpu : ∃ row, after.cpu.rows = before.cpu.rows ++ [row] ∧ after'.cpu.rows = before'.cpu.rows ++ [row]
  ram : ∃ row, after.ram.rows = before.ram.rows ++ [row] ∧ after'.ram.rows = before'.ram.rows ++ [row]
  network : ∃ row, after.network.rows = before.network.rows ++ [row] ∧
    after'.network.rows = before'.network.rows ++ [row]

/-- Once two states have come to agree, a round stores the same in both. -/
theorem Forgotten.gather_same {platform : Platform} {past : List (Round α)} {s s' t t' : CrumState α}
    {round : Round α} (h : Forgotten past s s') (hlong : 2 ≤ past.length)
    (hinterfaces : s.networkData.entries.length ≤ past.length) (hgather : gather platform s round = .ok t)
    (hgather' : gather platform s' round = .ok t') :
    SameRows s.database t.database s'.database t'.database := by
  rcases gather_eq_ok hgather with ⟨polled, cpu, ram, network, hdisk, hcpu, hram, hnetwork, rfl⟩
  rcases gather_eq_ok hgather' with ⟨polled', cpu', ram', network', hdisk', hcpu', hram', hnetwork', rfl⟩
  have hserial := h.same.serialNum
  rw [← hserial] at hdisk'
  constructor
  · have hsame := getDiskData_same rfl (h.synced (by omega)) (h.entries hlong) hdisk hdisk'
    have hrows := (getDiskData_spec hdisk).rows
    have hrows' := (getDiskData_spec hdisk').rows
    rw [← hsame] at hrows'
    exact ⟨_, hrows, hrows'⟩
  · rcases getCPUData_spec hcpu with ⟨-, loads, hloads, -, -, hrows⟩
    rcases getCPUData_spec hcpu' with ⟨-, loads', hloads', -, -, hrows'⟩
    -- equal baselines make OSHI return equal loads
    rw [← h.ticks (by omega), hloads] at hloads'
    obtain rfl := Except.ok.inj hloads'
    rw [← hserial] at hrows'
    exact ⟨_, hrows, hrows'⟩
  · have hrows := (getMemoryData_rows hram).2
    have hrows' := (getMemoryData_rows hram').2
    rw [← hserial, ← h.same.memoryData] at hrows'
    exact ⟨_, hrows, hrows'⟩
  · have hzero : ∀ dir, ∀ d ∈ gap dir s.networkData s'.networkData, d = 0 := by
      intro dir
      apply (h.network dir).all
      rw [gap, List.length_zipWith]
      exact (min_le_left _ _).trans hinterfaces
    have hrows := (getNetworkData_eq_ok_iff.mp hnetwork).2.2
    have hrows' := (getNetworkData_eq_ok_iff.mp hnetwork').2.2
    rw [← hserial, ← totals_of_gap h.same.interfaces hzero] at hrows'
    exact ⟨_, hrows, hrows'⟩

/-- After two rounds, and one for each interface, a round stores the same from any two states of the
program on one computer: what they started from is forgotten. -/
theorem rounds_forget {platform : Platform} {s s' t t' g g' : CrumState α} {rounds : List (Round α)}
    {round : Round α} (hsame : SameComputer s s') (hlong : 2 ≤ rounds.length)
    (hinterfaces : s.networkData.entries.length ≤ rounds.length)
    (hrun : run (iteration platform) s rounds = .ok t)
    (hrun' : run (iteration platform) s' rounds = .ok t')
    (hgather : gather platform t round = .ok g) (hgather' : gather platform t' round = .ok g') :
    SameRows t.database g.database t'.database g'.database := by
  have hforgotten := run_relate Forgotten (Forgotten.start hsame)
    (fun _ _ _ _ _ _ hu hstep hstep' => hu.step hstep hstep') hrun hrun'
  have hlength : t.networkData.entries.length = s.networkData.entries.length := by
    refine run_invariant (fun _ u => u.networkData.entries.length = s.networkData.entries.length) rfl ?_ hrun
    intro _ u _ v hu hstep
    rcases iteration_calls hstep with ⟨-, -, -, network, -, -, -, hnetwork, -, -, -, -, hnet⟩
    rw [hnet, (getNetworkData_eq_ok_iff.mp hnetwork).2.1, pollNetwork_length, hu]
  exact hforgotten.gather_same hlong (hlength ▸ hinterfaces) hgather hgather'

/-- A computer with one interface, started with counters at zero. -/
def coldComputer : Hardware Int64 := { smallComputer with networkIFs := [⟨0, 0, [], ""⟩] }

/-- The same computer, started later. -/
def warmComputer : Hardware Int64 :=
  { smallComputer with
    processorCpuLoadTicks := [[40, 0, 0, 60, 0, 0, 0, 0]]
    networkIFs := [⟨9000000, 1000000, [], ""⟩]
    disks := [{ model := "disk", partitions := [⟨"c"⟩], counters := ⟨7, 8192, 4096⟩ }] }

/-- The third round of both stores the same. -/
theorem cold_and_warm_start_forgotten :
    ∃ s s' t t' g g', initMain coldComputer 1618920000000 = .ok s ∧
      initMain warmComputer 1618920000000 = .ok s' ∧
      run (iteration utcPlatform) s
        [smallRound 1618920001000 1618920001000 0, smallRound 1618920002000 1618920002000 0] = .ok t ∧
      run (iteration utcPlatform) s'
        [smallRound 1618920001000 1618920001000 0, smallRound 1618920002000 1618920002000 0] = .ok t' ∧
      gather utcPlatform t (smallRound 1618920003000 1618920003000 4096) = .ok g ∧
      gather utcPlatform t' (smallRound 1618920003000 1618920003000 4096) = .ok g' ∧
      SameRows t.database g.database t'.database g'.database := by
  obtain ⟨g, hcold⟩ := exists_of_isOk (by decide : (runMain utcPlatform coldComputer 1618920000000
    [smallRound 1618920001000 1618920001000 0, smallRound 1618920002000 1618920002000 0] >>= fun t =>
      gather utcPlatform t (smallRound 1618920003000 1618920003000 4096)).isOk = true)
  obtain ⟨g', hwarm⟩ := exists_of_isOk (by decide : (runMain utcPlatform warmComputer 1618920000000
    [smallRound 1618920001000 1618920001000 0, smallRound 1618920002000 1618920002000 0] >>= fun t =>
      gather utcPlatform t (smallRound 1618920003000 1618920003000 4096)).isOk = true)
  rcases bind_eq_ok_iff.mp hcold with ⟨t, hrun, hgather⟩
  rcases bind_eq_ok_iff.mp hwarm with ⟨t', hrun', hgather'⟩
  rcases bind_eq_ok_iff.mp hrun with ⟨s, hinit, hrun⟩
  rcases bind_eq_ok_iff.mp hrun' with ⟨s', hinit', hrun'⟩
  have hsame : SameComputer s s' := by
    obtain rfl := Except.ok.inj hinit
    obtain rfl := Except.ok.inj hinit'
    exact ⟨rfl, rfl, rfl, rfl⟩
  have hone : s.networkData.entries.length ≤ 2 := by
    obtain rfl := Except.ok.inj hinit
    decide
  refine ⟨s, s', t, t', g, g', hinit, hinit', hrun, hrun', hgather, hgather',
    rounds_forget hsame ?_ ?_ hrun hrun' hgather hgather'⟩
  · decide
  · exact hone

end Crum
