/-
Module: Crum.Proofs.InterfaceText
Layer: Proofs
Purpose: What the strings of a NETWORK row say of the interfaces. Both strings are one segment for each
  interface, ended by a space. The addresses of a segment are joined by the dot that also separates the
  fields of an address; since every address has four fields, grouping the fields by four finds them again.
Imports: Crum.Lib.Segments, Crum.Proofs.NetworkPoll
Trusted boundary: none
Main exports: IsDottedQuad, addressText, addressesOf_addressText, RowTells, networkRow_tells,
  interface_strings_faithful
Open obligations: none
-/
import Crum.Lib.Segments
import Crum.Proofs.NetworkPoll

namespace Crum

open Segments

/-! ### Addresses -/

/-- Four fields, none of them empty, of decimal digits, separated by dots. -/
def IsDottedQuad (ip : String) : Prop :=
  ∃ a b c d : List Char, ip.toList = ['.'].intercalate [a, b, c, d] ∧
    ∀ field ∈ [a, b, c, d], field ≠ [] ∧ ∀ digit ∈ field, digit.isDigit

/-- The segment of an interface: its addresses, joined by dots. -/
def addressText (addresses : List String) : List Char :=
  ['.'].intercalate (addresses.map String.toList)

/-- Every four fields in a row are one address. -/
def quads : List (List Char) → List String
  | a :: b :: c :: d :: fields => String.ofList (['.'].intercalate [a, b, c, d]) :: quads fields
  | _ => []

/-- The addresses that a segment lists. -/
def addressesOf (segment : List Char) : List String :=
  if segment = [] then [] else quads (segment.splitOn '.')

/-- The fields of dotted quads, address by address. -/
theorem exists_fields {addresses : List String} (h : ∀ ip ∈ addresses, IsDottedQuad ip) :
    ∃ groups : List (List (List Char)),
      addresses.map String.toList = groups.map ['.'].intercalate ∧
      (∀ group ∈ groups, group ≠ []) ∧
      (∀ field ∈ groups.flatten, field ≠ [] ∧ '.' ∉ field ∧ ' ' ∉ field) ∧
      quads groups.flatten = addresses := by
  induction addresses with
  | nil => exact ⟨[], rfl, by simp, by simp, rfl⟩
  | cons ip addresses ih =>
      rcases ih fun q hq => h q (by simp [hq]) with ⟨groups, htexts, hgroups, hfields, hquads⟩
      rcases h ip (by simp) with ⟨a, b, c, d, htext, hdigits⟩
      refine ⟨[a, b, c, d] :: groups, ?_, ?_, ?_, ?_⟩
      · rw [List.map_cons, List.map_cons, htext, htexts]
      · intro group hgroup
        rcases List.mem_cons.mp hgroup with rfl | hgroup
        · exact List.cons_ne_nil a _
        · exact hgroups group hgroup
      · intro field hfield
        rw [List.flatten_cons, List.mem_append] at hfield
        rcases hfield with hfield | hfield
        · rcases hdigits field hfield with ⟨hne, hdigit⟩
          refine ⟨hne, ?_, ?_⟩
          · intro hdot
            exact absurd (hdigit _ hdot) (by decide)
          · intro hspace
            exact absurd (hdigit _ hspace) (by decide)
        · exact hfields field hfield
      · rw [List.flatten_cons]
        change String.ofList _ :: quads groups.flatten = _
        rw [← htext, hquads, String.ofList_toList]

/-- A segment lists exactly the addresses it was made from. -/
theorem addressesOf_addressText {addresses : List String} (h : ∀ ip ∈ addresses, IsDottedQuad ip) :
    addressesOf (addressText addresses) = addresses := by
  rcases exists_fields h with ⟨groups, htexts, hgroups, hfields, hquads⟩
  rw [addressText, htexts, intercalate_flatten _ hgroups]
  cases groups with
  | nil =>
      obtain rfl : addresses = [] := by simpa using htexts
      rfl
  | cons group groups =>
      have hnonempty : (group :: groups).flatten ≠ [] := by
        have := hgroups group (by simp)
        simp [this]
      have hsplit := List.splitOn_intercalate '.' (fun field hfield => (hfields field hfield).2.1)
        hnonempty
      -- an empty text would have one empty field
      have htext : ['.'].intercalate (group :: groups).flatten ≠ [] := by
        intro hempty
        rw [hempty, List.splitOn_nil] at hsplit
        exact (hfields [] (by rw [← hsplit]; simp)).1 rfl
      rw [addressesOf, if_neg htext, hsplit, hquads]

/-- A segment contains no space. -/
theorem space_notMem_addressText {addresses : List String} (h : ∀ ip ∈ addresses, IsDottedQuad ip) :
    ' ' ∉ addressText addresses := by
  rcases exists_fields h with ⟨groups, htexts, hgroups, hfields, -⟩
  rw [addressText, htexts, intercalate_flatten _ hgroups]
  exact notMem_intercalate (by decide) fun field hfield => (hfields field hfield).2.2

/-! ### The strings of one call -/

section Strings

variable {α : Type}

/-- What the refreshes of the first `n` interfaces deliver. -/
def readings (fresh : Nat → NetworkIF α) (n : Nat) : List (NetworkIF α) := (List.range n).map fresh

/-- The strings OSHI is assumed to deliver for an interface. -/
structure NetworkIF.WellFormed (netIF : NetworkIF α) : Prop where
  addresses : ∀ ip ∈ netIF.ipv4addr, IsDottedQuad ip
  mac : ' ' ∉ netIF.macaddr.toList

theorem readings_succ (fresh : Nat → NetworkIF α) (n : Nat) :
    readings fresh (n + 1) = fresh 0 :: readings (fun i => fresh (i + 1)) n := by
  rw [readings, List.range_succ_eq_map, List.map_cons, List.map_map]
  rfl

/-- The addresses of the interfaces, as a NETWORK_ID tells them. -/
def decodeAddresses (networkId : String) : List (List String) :=
  (segments ' ' networkId.toList).map addressesOf

/-- The MACs of the interfaces, as a MAC_ADDRESS tells them. -/
def decodeMacs (macAddress : String) : List String :=
  (segments ' ' macAddress.toList).map String.ofList

end Strings

variable {α : Type} [JavaLong α]

omit [JavaLong α] in
@[simp] theorem length_readings (fresh : Nat → NetworkIF α) (n : Nat) :
    (readings fresh n).length = n := by
  simp [readings]

/-- The inner loop appends the segment of the interface. -/
theorem appendIPs_toList (ips : String) (addresses : List String) :
    (appendIPs ips addresses).toList = ips.toList ++ addressText addresses := by
  induction addresses generalizing ips with
  | nil => simp [appendIPs, addressText]
  | cons ip addresses ih =>
      cases addresses with
      | nil => simp [appendIPs, addressText]
      | cons next addresses =>
          have hstep : appendIPs ips (ip :: next :: addresses) =
              appendIPs (ips ++ ip ++ ".") (next :: addresses) := rfl
          rw [hstep, ih]
          simp [addressText]

/-- The loop appends one segment for each interface to the first string. -/
theorem pollInterfaces_ips (fresh : Nat → NetworkIF α) (totals : NetworkTotals α)
    (entries : List (NetworkEntry α)) :
    (pollInterfaces fresh totals entries).1.ips.toList =
      totals.ips.toList ++ terminated ' '
        ((readings fresh entries.length).map fun netIF => addressText netIF.ipv4addr) := by
  induction entries generalizing fresh totals with
  | nil => simp [pollInterfaces, readings]
  | cons entry entries ih =>
      have hhead : (pollInterface (fresh 0) totals entry).1.ips.toList =
          totals.ips.toList ++ addressText (fresh 0).ipv4addr ++ [' '] := by
        rw [pollInterface, NetworkIF.updateAttributes, String.toList_append, appendIPs_toList]
        rfl
      rw [pollInterfaces, List.length_cons, readings_succ, List.map_cons, terminated_cons, ih, hhead]
      simp

/-- The loop appends one segment for each interface to the second string. -/
theorem pollInterfaces_macs (fresh : Nat → NetworkIF α) (totals : NetworkTotals α)
    (entries : List (NetworkEntry α)) :
    (pollInterfaces fresh totals entries).1.macs.toList =
      totals.macs.toList ++ terminated ' '
        ((readings fresh entries.length).map fun netIF => netIF.macaddr.toList) := by
  induction entries generalizing fresh totals with
  | nil => simp [pollInterfaces, readings]
  | cons entry entries ih =>
      have hhead : (pollInterface (fresh 0) totals entry).1.macs.toList =
          totals.macs.toList ++ (fresh 0).macaddr.toList ++ [' '] := by
        rw [pollInterface, NetworkIF.updateAttributes, String.toList_append, String.toList_append,
          List.append_assoc]
        rfl
      rw [pollInterfaces, List.length_cons, readings_succ, List.map_cons, terminated_cons, ih, hhead]
      simp

/-! ### Nothing is lost -/

/-- The text consists of these segments, each ended by a space that it does not contain itself. -/
structure SplitsInto (text : String) (parts : List (List Char)) : Prop where
  text_eq : text.toList = terminated ' ' parts
  no_space : ∀ part ∈ parts, ' ' ∉ part

theorem SplitsInto.segments_eq {text : String} {parts : List (List Char)} (h : SplitsInto text parts) :
    segments ' ' text.toList = parts := by
  rw [h.text_eq, segments_terminated h.no_space]

/-- The two strings of a row tell everything about the interfaces: segment `k` of each belongs to
interface `k`. -/
structure RowTells (row : NetworkRow α) (interfaces : List (NetworkIF α)) : Prop where
  ids : ∃ parts, SplitsInto row.networkId parts ∧ parts.length = interfaces.length ∧
    ∀ k : Nat, (parts[k]?).map addressesOf = (interfaces[k]?).map (·.ipv4addr)
  macs : ∃ parts, SplitsInto row.macAddress parts ∧ parts.length = interfaces.length ∧
    ∀ k : Nat, (parts[k]?).map String.ofList = (interfaces[k]?).map (·.macaddr)

omit [JavaLong α] in
theorem RowTells.addresses {row : NetworkRow α} {interfaces : List (NetworkIF α)}
    (h : RowTells row interfaces) : decodeAddresses row.networkId = interfaces.map (·.ipv4addr) := by
  rcases h.ids with ⟨parts, hsplit, -, hparts⟩
  rw [decodeAddresses, hsplit.segments_eq]
  apply List.ext_getElem?
  intro k
  rw [List.getElem?_map, List.getElem?_map]
  exact hparts k

omit [JavaLong α] in
theorem RowTells.macAddresses {row : NetworkRow α} {interfaces : List (NetworkIF α)}
    (h : RowTells row interfaces) : decodeMacs row.macAddress = interfaces.map (·.macaddr) := by
  rcases h.macs with ⟨parts, hsplit, -, hparts⟩
  rw [decodeMacs, hsplit.segments_eq]
  apply List.ext_getElem?
  intro k
  rw [List.getElem?_map, List.getElem?_map]
  exact hparts k

/-- The row of a call tells what the refreshes of the call delivered. -/
theorem networkRow_tells (calendar : Int) (serialNum : String) {net : Network α}
    {fresh : Nat → NetworkIF α} (hwf : ∀ netIF ∈ readings fresh net.entries.length, netIF.WellFormed) :
    RowTells (networkRow calendar serialNum (pollNetwork net fresh).1)
      (readings fresh net.entries.length) := by
  constructor
  · refine ⟨_, ⟨pollInterfaces_ips fresh .start net.entries, ?_⟩, ?_, ?_⟩
    · intro part hpart
      rcases List.mem_map.mp hpart with ⟨netIF, hmem, rfl⟩
      exact space_notMem_addressText (hwf netIF hmem).addresses
    · rw [List.length_map]
    · intro k
      rw [List.getElem?_map, Option.map_map]
      cases hk : (readings fresh net.entries.length)[k]? with
      | none => rfl
      | some netIF =>
          have hmem := List.mem_of_getElem? hk
          exact congrArg some (addressesOf_addressText (hwf netIF hmem).addresses)
  · refine ⟨_, ⟨pollInterfaces_macs fresh .start net.entries, ?_⟩, ?_, ?_⟩
    · intro part hpart
      rcases List.mem_map.mp hpart with ⟨netIF, hmem, rfl⟩
      exact (hwf netIF hmem).mac
    · rw [List.length_map]
    · intro k
      rw [List.getElem?_map, Option.map_map]
      congr 1
      funext netIF
      exact String.ofList_toList

/-- From the row a call inserts the addresses and the MACs of all interfaces can be read off. So two calls
that insert the same pair of strings have read the same interfaces, and two that insert the same
NETWORK_ID have read the same addresses. -/
theorem interface_strings_faithful {calendar : Int} {serialNum : String} {net : Network α}
    {fresh : Nat → NetworkIF α} {table : NetworkTable α} {result : Network α × NetworkTable α}
    (hwf : ∀ netIF ∈ readings fresh net.entries.length, netIF.WellFormed)
    (hcall : getNetworkData calendar serialNum net fresh table = .ok result) :
    ∃ row, result.2.rows = table.rows ++ [row] ∧
      RowTells row (readings fresh net.entries.length) ∧
      decodeAddresses row.networkId = (readings fresh net.entries.length).map (·.ipv4addr) ∧
      decodeMacs row.macAddress = (readings fresh net.entries.length).map (·.macaddr) ∧
      ∀ (calendar' : Int) (serialNum' : String) (net' : Network α) (fresh' : Nat → NetworkIF α)
        (table' : NetworkTable α) (result' : Network α × NetworkTable α),
        (∀ netIF ∈ readings fresh' net'.entries.length, netIF.WellFormed) →
        getNetworkData calendar' serialNum' net' fresh' table' = .ok result' →
        ∃ row', result'.2.rows = table'.rows ++ [row'] ∧
          (row'.networkId = row.networkId →
            (readings fresh' net'.entries.length).map (·.ipv4addr) =
              (readings fresh net.entries.length).map (·.ipv4addr)) ∧
          (row'.networkId = row.networkId → row'.macAddress = row.macAddress →
            (readings fresh' net'.entries.length).map (fun netIF => (netIF.ipv4addr, netIF.macaddr)) =
              (readings fresh net.entries.length).map fun netIF => (netIF.ipv4addr, netIF.macaddr)) := by
  have htells := networkRow_tells calendar serialNum hwf
  refine ⟨_, (getNetworkData_eq_ok_iff.mp hcall).2.2, htells, htells.addresses, htells.macAddresses, ?_⟩
  intro calendar' serialNum' net' fresh' table' result' hwf' hcall'
  have htells' := networkRow_tells calendar' serialNum' hwf'
  refine ⟨_, (getNetworkData_eq_ok_iff.mp hcall').2.2, ?_, ?_⟩
  · intro hid
    rw [← htells'.addresses, hid, htells.addresses]
  · intro hid hmac
    have haddresses : (readings fresh' net'.entries.length).map (·.ipv4addr) =
        (readings fresh net.entries.length).map (·.ipv4addr) := by
      rw [← htells'.addresses, hid, htells.addresses]
    have hmacs : (readings fresh' net'.entries.length).map (·.macaddr) =
        (readings fresh net.entries.length).map (·.macaddr) := by
      rw [← htells'.macAddresses, hmac, htells.macAddresses]
    rw [← List.zip_map', ← List.zip_map', haddresses, hmacs]

/-- Two adapters with the given addresses. -/
def adapters (first second : List String) (i : Nat) : NetworkIF Int64 :=
  if i = 0 then ⟨0, 0, first, "aa:bb"⟩ else ⟨0, 0, second, "cc:dd"⟩

def twoAdapters : Network Int64 where
  entries := [⟨adapters [] [] 0, 0, 0⟩, ⟨adapters [] [] 1, 0, 0⟩]

theorem adapters_wellFormed {first second : List String} (hfirst : ∀ ip ∈ first, IsDottedQuad ip)
    (hsecond : ∀ ip ∈ second, IsDottedQuad ip) :
    ∀ netIF ∈ readings (adapters first second) twoAdapters.entries.length, netIF.WellFormed := by
  intro netIF hmem
  have hcases : netIF = adapters first second 0 ∨ netIF = adapters first second 1 := by
    simpa [readings, twoAdapters, List.range_succ] using hmem
  rcases hcases with rfl | rfl
  · have hmac : ' ' ∉ "aa:bb".toList := by decide
    exact ⟨hfirst, hmac⟩
  · have hmac : ' ' ∉ "cc:dd".toList := by decide
    exact ⟨hsecond, hmac⟩

theorem home_isDottedQuad : IsDottedQuad "10.0.0.1" :=
  ⟨['1', '0'], ['0'], ['0'], ['1'], rfl, by simp⟩

theorem office_isDottedQuad : IsDottedQuad "192.168.1.20" :=
  ⟨['1', '9', '2'], ['1', '6', '8'], ['1'], ['2', '0'], rfl, by simp⟩

/-- The eight fields of a first segment are two addresses again, and the blank segment is none. With one
address on each adapter the NETWORK_ID is another one. -/
theorem two_adapters_told :
    ∃ (result : Network Int64 × NetworkTable Int64) (row row' : NetworkRow Int64),
      getNetworkData 0 "S" twoAdapters (adapters ["10.0.0.1", "192.168.1.20"] []) .empty = .ok result ∧
      result.2.rows = [row] ∧ row.networkId = "10.0.0.1.192.168.1.20  " ∧
      decodeAddresses row.networkId = [["10.0.0.1", "192.168.1.20"], []] ∧
      decodeMacs row.macAddress = ["aa:bb", "cc:dd"] ∧
      row'.networkId = "10.0.0.1 192.168.1.20 " ∧ row'.networkId ≠ row.networkId := by
  have hok : (getNetworkData 0 "S" twoAdapters (adapters ["10.0.0.1", "192.168.1.20"] [])
      .empty).isOk = true := rfl
  have hok' : (getNetworkData 0 "S" twoAdapters (adapters ["10.0.0.1"] ["192.168.1.20"])
      .empty).isOk = true := rfl
  rcases JavaRuntime.exists_of_isOk hok with ⟨result, hcall⟩
  rcases JavaRuntime.exists_of_isOk hok' with ⟨result', hcall'⟩
  have hboth : ∀ ip ∈ ["10.0.0.1", "192.168.1.20"], IsDottedQuad ip := by
    simp [home_isDottedQuad, office_isDottedQuad]
  have hhome : ∀ ip ∈ ["10.0.0.1"], IsDottedQuad ip := by simp [home_isDottedQuad]
  have hoffice : ∀ ip ∈ ["192.168.1.20"], IsDottedQuad ip := by simp [office_isDottedQuad]
  have hwf := adapters_wellFormed hboth (List.forall_mem_nil IsDottedQuad)
  have hwf' := adapters_wellFormed hhome hoffice
  have hrow := (getNetworkData_eq_ok_iff.mp hcall).2.2
  have hrow' := (getNetworkData_eq_ok_iff.mp hcall').2.2
  rcases interface_strings_faithful hwf hcall with ⟨row, hrows, -, haddresses, hmacs, hsame⟩
  rcases hsame 0 "S" twoAdapters _ .empty result' hwf' hcall' with ⟨row', hrows', hids, -⟩
  rw [hrow, List.append_right_inj, List.singleton_inj] at hrows
  rw [hrow', List.append_right_inj, List.singleton_inj] at hrows'
  refine ⟨result, row, row', hcall, ?_, ?_, haddresses, hmacs, ?_, ?_⟩
  · rw [hrow, hrows]
    rfl
  · rw [← hrows]
    decide
  · rw [← hrows']
    decide
  · intro heq
    have hlists := hids heq
    revert hlists
    decide

end Crum
