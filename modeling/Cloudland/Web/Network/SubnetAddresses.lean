import Mathlib.Data.List.Nodup
import Cloudland.Lib.Ipv4

/-!
The address rows that `SubnetAdmin.Create` (`routes/subnet.go`) enters for a new subnet. The empty text stands for
an absent one.
-/

namespace Web

open List Option Ipv4

structure IpNet where
  ip : Nat
  preSize : Nat
  ip_lt : ip < 2 ^ 32
  preSize_le : preSize ≤ 32

namespace IpNet

variable (net : IpNet)

def addressCount : Nat := 2 ^ (32 - net.preSize)

def first : Nat := net.ip / net.addressCount * net.addressCount

def last : Nat := net.first + (net.addressCount - 1)

def contains (ip : Nat) : Bool := ip / net.addressCount = net.ip / net.addressCount

def cidr (ip : List Char) : List Char := ip ++ '/' :: decimal net.preSize

def row (ip : Nat) : List Char := net.cidr (format ip)

end IpNet

/--
The next address. It starts again behind 255.255.255.255.
-/
def inc (ip : Nat) : Nat := (ip + 1) % 2 ^ 32

def dec (ip : Nat) : Nat := (ip + (2 ^ 32 - 1)) % 2 ^ 32

/--
The functions of the package `cidr` that `Create` calls. The package is not part of the repository.
-/
structure CidrPackage where
  addressCount : IpNet → Nat
  addressRange : IpNet → Nat × Nat
  inc : Nat → Nat
  dec : Nat → Nat

namespace CidrPackage

structure Correct (cidr : CidrPackage) : Prop where
  addressCount : cidr.addressCount = IpNet.addressCount
  addressRange : cidr.addressRange = fun net => (net.first, net.last)
  inc : cidr.inc = Web.inc
  dec : cidr.dec = Web.dec

def exact : CidrPackage := ⟨IpNet.addressCount, fun net => (net.first, net.last), Web.inc, Web.dec⟩

theorem exact_correct : Correct exact := ⟨rfl, rfl, rfl, rfl⟩

end CidrPackage

structure SubnetArgs where
  gateway : List Char
  startIP : List Char
  endIP : List Char

namespace SubnetArgs

variable (args : SubnetArgs) (cidr : CidrPackage) (net : IpNet)

def moved (f : Nat → Nat) (ip : List Char) : List Char :=
  match parse ip with
  | some ip => format (f ip)
  | none => "<nil>".toList

def orDefault (ip : List Char) (default : Nat) : List Char := if ip = [] then format default else ip

def gatewayText : List Char := orDefault args.gateway (cidr.inc (cidr.addressRange net).1)

def startText : List Char :=
  let start := orDefault args.startIP (cidr.inc (cidr.addressRange net).1)
  if start = args.gatewayText cidr net then moved cidr.inc start else start

def endText : List Char :=
  let stop := orDefault args.endIP (cidr.dec (cidr.addressRange net).2)
  if stop = args.gatewayText cidr net then moved cidr.dec stop else stop

def addressLoop (gateway stop : List Char) : Nat → Nat → Option (Option (List (List Char)))
  | 0, _ => none
  | fuel + 1, ip =>
    if net.contains ip = false then
      some none
    else if format ip = stop then
      some (some [net.row ip])
    else
      let next := cidr.inc ip
      let next := if net.row next = gateway then cidr.inc next else next
      (addressLoop gateway stop fuel next).map (Option.map (net.row ip :: ·))

def create : Option (List (List Char)) :=
  if cidr.addressCount net < 5 ∨ cidr.addressCount net > 1000 then
    none
  else do
    let gateway := net.cidr (args.gatewayText cidr net)
    let ip ← parse (args.startText cidr net)
    let rows ← (addressLoop cidr net gateway (args.endText cidr net) (net.addressCount + 1) ip).join
    return rows ++ [gateway]

end SubnetArgs

namespace IpNet

variable {net : IpNet} {ip : Nat}

theorem addressCount_pos : 0 < net.addressCount := Nat.two_pow_pos _

theorem last_eq : net.last + 1 = net.first + net.addressCount := by
  have := @addressCount_pos net
  rw [last]
  omega

theorem last_lt : net.last < 2 ^ 32 := by
  have hsplit : 2 ^ 32 = 2 ^ net.preSize * net.addressCount := by
    rw [addressCount, ← Nat.pow_add]
    congr 1
    have := net.preSize_le
    omega
  have hquot := Nat.div_lt_of_lt_mul (Nat.mul_comm _ _ ▸ hsplit ▸ net.ip_lt)
  have hle := Nat.mul_le_mul_right net.addressCount hquot
  rw [Nat.add_one_mul, ← hsplit] at hle
  have := @last_eq net
  rw [first] at this
  omega

theorem contains_iff : net.contains ip ↔ net.first ≤ ip ∧ ip ≤ net.last := by
  rw [contains, decide_eq_true_eq, Nat.div_eq_iff addressCount_pos]
  have := @last_eq net
  rw [first, Nat.mul_comm] at *
  omega

theorem row_inj (ha : a < 2 ^ 32) (hb : b < 2 ^ 32) (h : net.row a = net.row b) : a = b :=
  format_inj ha hb (append_cancel_right h)

end IpNet

namespace SubnetArgs

def between (a b : Nat) : List Nat := range' a (b + 1 - a)

theorem mem_between : ip ∈ between a b ↔ a ≤ ip ∧ ip ≤ b := by
  rw [between, mem_range'_1]
  omega

theorem between_cons (h : a ≤ b) : between a b = a :: between (a + 1) b := by
  rw [between, between, show b + 1 - a = (b - a) + 1 by omega, range'_succ,
    show b + 1 - (a + 1) = b - a by omega]

section Loop

variable {cidr : CidrPackage} {net : IpNet} {gateway stop ip fuel : Nat}

theorem contains_add (hcount : net.addressCount ≤ 1000) (hip : net.contains ip) (hn : n ≤ 2)
    : if ip + n ≤ net.last then (ip + n) % 2 ^ 32 = ip + n ∧ net.contains (ip + n)
      else net.contains ((ip + n) % 2 ^ 32) = false := by
  have hlast := @IpNet.last_lt net
  have heq := @IpNet.last_eq net
  rw [IpNet.contains_iff] at hip
  split
  . next hle => exact ⟨Nat.mod_eq_of_lt (by omega), IpNet.contains_iff.mpr ⟨by omega, hle⟩⟩
  . rw [← Bool.not_eq_true, IpNet.contains_iff]
    omega

theorem inc_inc : inc (inc ip) = (ip + 2) % 2 ^ 32 := by
  rw [inc, inc, Nat.mod_add_mod]

theorem addressLoop_of_not_contains {gateway stop : List Char} (h : net.contains ip = false) (hfuel : 0 < fuel)
    : addressLoop cidr net gateway stop fuel ip = some none := by
  cases fuel with
  | zero => contradiction
  | succ fuel => rw [addressLoop, if_pos h]

def rowsFrom (net : IpNet) (gateway stop ip : Nat) : Option (List (List Char)) :=
  if ip ≤ stop ∧ stop ≤ net.last then
    some (((between ip stop).filter (· ≠ gateway)).map net.row)
  else
    none

theorem rowsFrom_of_lt (h : net.last < ip) : rowsFrom net gateway stop ip = none := by
  rw [rowsFrom, if_neg (by omega)]

theorem rowsFrom_stop (hip : ip ≤ net.last) (hgw : ip ≠ gateway) : rowsFrom net gateway ip ip = some [net.row ip] := by
  rw [rowsFrom, if_pos ⟨Nat.le_refl _, hip⟩]
  simp [between, hgw]

theorem rowsFrom_succ (hstop : ip ≠ stop)
    : rowsFrom net gateway stop ip
        =
      (rowsFrom net gateway stop (ip + 1)).map (if ip = gateway then id else (net.row ip :: ·)) := by
  rw [rowsFrom, rowsFrom]
  by_cases h : ip ≤ stop ∧ stop ≤ net.last
  . rw [if_pos h, if_pos (show ip + 1 ≤ stop ∧ _ from ⟨by omega, h.2⟩), between_cons h.1]
    by_cases hgw : ip = gateway
    . simp [hgw]
    . simp [hgw]
  . rw [if_neg h, if_neg (show ¬(ip + 1 ≤ stop ∧ _) by omega)]
    rfl

-- The induction is on the fuel, of which one unit is left when the loop has left the network.
theorem addressLoop_eq (hcidr : cidr.Correct) (hcount : net.addressCount ≤ 1000) (hgateway : gateway < 2 ^ 32)
    (hstop : stop < 2 ^ 32) (hne : stop ≠ gateway) (hip : net.contains ip) (hgw : ip ≠ gateway)
    (hfuel : net.last + 1 < fuel + ip)
    : addressLoop cidr net (net.row gateway) (format stop) fuel ip = some (rowsFrom net gateway stop ip) := by
  induction fuel generalizing ip with
  | zero =>
    have := IpNet.contains_iff.mp hip
    omega
  | succ fuel ih =>
    have hlast := @IpNet.last_lt net
    have hrange := IpNet.contains_iff.mp hip
    have hpos : 0 < fuel := by omega
    have hone := contains_add hcount hip (show 1 ≤ 2 by decide)
    have htwo := contains_add hcount hip (show 2 ≤ 2 by decide)
    rw [addressLoop, if_neg (by simp [hip]), hcidr.inc]
    by_cases hend : ip = stop
    . rw [if_pos (by rw [hend]), ← hend, rowsFrom_stop hrange.2 hgw]
    . rw [if_neg (fun h => hend (format_inj (by omega) hstop h)), rowsFrom_succ hend, if_neg hgw]
      have hskip : net.row (inc ip) = net.row gateway ↔ inc ip = gateway :=
        ⟨IpNet.row_inj (Nat.mod_lt _ (by decide)) hgateway, congrArg net.row⟩
      simp only [hskip]
      by_cases hnext : inc ip = gateway
      . rw [if_pos hnext, inc_inc]
        split at htwo
        . next hle =>
          rw [if_pos (by omega)] at hone
          have hgate : ip + 1 = gateway := by rw [← hnext, inc, hone.1]
          rw [htwo.1, ih htwo.2 (by omega) (by omega), @rowsFrom_succ _ _ _ (ip + 1) (hgate ▸ Ne.symm hne),
            if_pos hgate]
          simp
        . rw [addressLoop_of_not_contains htwo hpos]
          by_cases hle : ip + 1 ≤ net.last
          . rw [if_pos hle] at hone
            have hgate : ip + 1 = gateway := by rw [← hnext, inc, hone.1]
            rw [@rowsFrom_succ _ _ _ (ip + 1) (hgate ▸ Ne.symm hne), rowsFrom_of_lt (by omega)]
            rfl
          . rw [rowsFrom_of_lt (by omega)]
            rfl
      . rw [if_neg hnext]
        rw [inc] at hnext ⊢
        split at hone
        . rw [hone.1] at hnext ⊢
          rw [ih hone.2 hnext (by omega)]
          rfl
        . rw [addressLoop_of_not_contains hone hpos, rowsFrom_of_lt (by omega)]
          rfl

end Loop

def IsArg (ip : List Char) : Prop := ip = [] ∨ (parse ip).isSome

structure WellFormed (args : SubnetArgs) : Prop where
  gateway : IsArg args.gateway
  startIP : IsArg args.startIP
  endIP : IsArg args.endIP

def ipOr (ip : List Char) (default : Nat) : Nat := if ip = [] then default else (parse ip).getD default

def avoiding (gateway : Nat) (f : Nat → Nat) (ip : Nat) : Nat := if ip = gateway then f ip else ip

theorem inc_lt : inc ip < 2 ^ 32 := Nat.mod_lt _ (by decide)

theorem dec_lt : dec ip < 2 ^ 32 := Nat.mod_lt _ (by decide)

theorem orDefault_eq {ip : List Char} {default : Nat} (h : IsArg ip) (hdefault : default < 2 ^ 32)
    : orDefault ip default = format (ipOr ip default) ∧ ipOr ip default < 2 ^ 32 := by
  rw [orDefault, ipOr]
  split
  . exact ⟨rfl, hdefault⟩
  . next hne =>
    have ⟨n, hn⟩ := isSome_iff_exists.mp (h.resolve_left hne)
    rw [hn]
    have ⟨hlt, htext⟩ := parse_eq_some.mp hn
    exact ⟨htext, hlt⟩

theorem avoiding_eq {gateway ip : Nat} (hip : ip < 2 ^ 32) (hgateway : gateway < 2 ^ 32) (hf : f ip < 2 ^ 32)
    (hne : f ip ≠ ip)
    : (if format ip = format gateway then moved f (format ip) else format ip) = format (avoiding gateway f ip) ∧
      avoiding gateway f ip < 2 ^ 32 ∧ avoiding gateway f ip ≠ gateway := by
  rw [avoiding, moved, parse_format hip]
  by_cases hsame : ip = gateway
  . rw [if_pos (by rw [hsame]), if_pos hsame]
    exact ⟨rfl, hf, hsame ▸ hne⟩
  . rw [if_neg (fun heq => hsame (format_inj hip hgateway heq)), if_neg hsame]
    exact ⟨rfl, hip, hsame⟩

section Args

variable (args : SubnetArgs) (net : IpNet)

def gatewayAddr : Nat := ipOr args.gateway (inc net.first)

def startAddr : Nat := ipOr args.startIP (inc net.first)

def endAddr : Nat := ipOr args.endIP (dec net.last)

def loopStart : Nat := avoiding (args.gatewayAddr net) inc (args.startAddr net)

def loopEnd : Nat := avoiding (args.gatewayAddr net) dec (args.endAddr net)

end Args

section Create

variable {args : SubnetArgs} {cidr : CidrPackage} {net : IpNet}

section Texts

variable (h : WellFormed args) (hcidr : cidr.Correct)

include h

theorem WellFormed.gatewayAddr_lt : args.gatewayAddr net < 2 ^ 32 := (orDefault_eq h.gateway inc_lt).2

include hcidr

theorem WellFormed.gateway_eq : args.gatewayText cidr net = format (args.gatewayAddr net) := by
  rw [gatewayText, hcidr.inc, hcidr.addressRange]
  exact (orDefault_eq h.gateway inc_lt).1

theorem WellFormed.start_eq
    : args.startText cidr net = format (args.loopStart net) ∧ args.loopStart net < 2 ^ 32 ∧
        args.loopStart net ≠ args.gatewayAddr net := by
  have ⟨htext, hlt⟩ := orDefault_eq h.startIP (@inc_lt net.first)
  rw [startText, h.gateway_eq hcidr, hcidr.inc, hcidr.addressRange, htext]
  exact avoiding_eq hlt h.gatewayAddr_lt inc_lt (by rw [inc]; omega)

theorem WellFormed.end_eq
    : args.endText cidr net = format (args.loopEnd net) ∧ args.loopEnd net < 2 ^ 32 ∧
        args.loopEnd net ≠ args.gatewayAddr net := by
  have ⟨htext, hlt⟩ := orDefault_eq h.endIP (@dec_lt net.last)
  rw [endText, h.gateway_eq hcidr, hcidr.dec, hcidr.addressRange, htext]
  exact avoiding_eq hlt h.gatewayAddr_lt dec_lt (by rw [dec]; omega)

end Texts

def Accepted (args : SubnetArgs) (net : IpNet) : Prop :=
  net.first ≤ args.loopStart net ∧ args.loopStart net ≤ args.loopEnd net ∧ args.loopEnd net ≤ net.last

instance : Decidable (Accepted args net) := inferInstanceAs (Decidable (_ ∧ _))

def addresses (args : SubnetArgs) (net : IpNet) : List Nat :=
  (between (args.loopStart net) (args.loopEnd net)).filter (· ≠ args.gatewayAddr net) ++ [args.gatewayAddr net]

theorem addressLoop_create (hcidr : cidr.Correct) (h : WellFormed args) (hcount : net.addressCount ≤ 1000)
    (hfuel : net.addressCount < fuel)
    : addressLoop cidr net (net.cidr (args.gatewayText cidr net)) (args.endText cidr net) fuel (args.loopStart net)
        =
      some (if net.contains (args.loopStart net) then
        rowsFrom net (args.gatewayAddr net) (args.loopEnd net) (args.loopStart net) else none) := by
  have ⟨_, _, hstart⟩ := @WellFormed.start_eq args cidr net h hcidr
  have ⟨htext, hlt, hend⟩ := @WellFormed.end_eq args cidr net h hcidr
  by_cases hin : net.contains (args.loopStart net)
  . have hrange := IpNet.contains_iff.mp hin
    have hlast := @IpNet.last_eq net
    rw [if_pos hin, h.gateway_eq hcidr, htext]
    exact addressLoop_eq hcidr hcount h.gatewayAddr_lt hlt hend hin hstart (by omega)
  . rw [if_neg hin, addressLoop_of_not_contains (by simpa using hin) (by omega)]

theorem create_eq (hcidr : cidr.Correct) (h : WellFormed args) (hlow : 5 ≤ net.addressCount)
    (hhigh : net.addressCount ≤ 1000)
    : args.create cidr net = if Accepted args net then some ((args.addresses net).map net.row) else none := by
  have ⟨hstext, hslt, _⟩ := @WellFormed.start_eq args cidr net h hcidr
  rw [create, hcidr.addressCount, if_neg (by omega)]
  rw [hstext, parse_format hslt]
  show bind (join (addressLoop _ _ _ _ _ (args.loopStart net))) _ = _
  rw [addressLoop_create hcidr h hhigh (Nat.lt_succ_self _), rowsFrom, join_some, h.gateway_eq hcidr]
  by_cases hok : Accepted args net
  . have hin := IpNet.contains_iff.mpr ⟨hok.1, Nat.le_trans hok.2.1 hok.2.2⟩
    rw [if_pos hok, if_pos hin, if_pos hok.2, addresses, map_append]
    rfl
  . rw [if_neg hok]
    split
    . next hin =>
      have hrange := IpNet.contains_iff.mp hin
      rw [if_neg (fun hle => hok ⟨hrange.1, hle⟩)]
      rfl
    . rfl

structure Exact (args : SubnetArgs) (net : IpNet) (rows : List (List Char)) : Prop where
  nodup : rows.Nodup
  inside : ∀ row ∈ rows, ∃ ip, net.contains ip ∧ row = net.row ip
  mem_iff : ∀ row, row ∈ rows ↔
    ∃ ip, (args.startAddr net ≤ ip ∧ ip ≤ args.endAddr net ∨ ip = args.gatewayAddr net) ∧ row = net.row ip
  ends : args.startIP = [] → args.endIP = [] → net.row net.first ∉ rows ∧ net.row net.last ∉ rows

structure GatewayInside (args : SubnetArgs) (net : IpNet) : Prop where
  contains : net.contains (args.gatewayAddr net)
  ends : args.startIP = [] → args.endIP = [] →
    args.gatewayAddr net ≠ net.first ∧ args.gatewayAddr net ≠ net.last

theorem mem_addresses
    : ip ∈ args.addresses net ↔
        args.loopStart net ≤ ip ∧ ip ≤ args.loopEnd net ∨ ip = args.gatewayAddr net := by
  simp only [addresses, List.mem_append, List.mem_filter, mem_between, decide_eq_true_eq, List.mem_singleton]
  tauto

theorem nodup_addresses : (args.addresses net).Nodup := by
  have hbetween : (between (args.loopStart net) (args.loopEnd net)).Nodup := nodup_range'
  rw [addresses, nodup_append]
  exact ⟨hbetween.filter _, nodup_singleton _, by simp⟩

section Accepted

variable (hok : Accepted args net) (hgw : net.contains (args.gatewayAddr net))

include hok hgw

theorem contains_of_mem (h : ip ∈ args.addresses net) : net.contains ip := by
  obtain hrange | heq := mem_addresses.mp h
  . exact IpNet.contains_iff.mpr ⟨Nat.le_trans hok.1 hrange.1, Nat.le_trans hrange.2 hok.2.2⟩
  . exact heq ▸ hgw

theorem mem_addresses_iff (hcount : net.addressCount ≤ 1000)
    : ip ∈ args.addresses net ↔
        args.startAddr net ≤ ip ∧ ip ≤ args.endAddr net ∨ ip = args.gatewayAddr net := by
  rw [mem_addresses]
  have ⟨hfirst, _, hlast⟩ := hok
  have heq := @IpNet.last_eq net
  have hlt := @IpNet.last_lt net
  rw [IpNet.contains_iff] at hgw
  by_cases hne : ip = args.gatewayAddr net
  . simp [hne]
  . have hstart : args.loopStart net ≤ ip ↔ args.startAddr net ≤ ip := by
      rw [loopStart, avoiding] at hfirst ⊢
      split
      . next hsame =>
        rw [if_pos hsame, inc] at hfirst
        rw [inc]
        omega
      . rfl
    have hend : ip ≤ args.loopEnd net ↔ ip ≤ args.endAddr net := by
      rw [loopEnd, avoiding] at hlast ⊢
      split
      . next hsame =>
        rw [if_pos hsame, dec] at hlast
        rw [dec]
        omega
      . rfl
    rw [hstart, hend]

end Accepted

theorem exact_addresses (hcount : net.addressCount ≤ 1000) (hok : Accepted args net) (hgw : GatewayInside args net)
    : Exact args net ((args.addresses net).map net.row) := by
  have hlast := @IpNet.last_lt net
  have hrange : ∀ ip ∈ args.addresses net, net.first ≤ ip ∧ ip ≤ net.last :=
    fun ip hip => IpNet.contains_iff.mp (contains_of_mem hok hgw.contains hip)
  refine ⟨?_, ?_, ?_, ?_⟩
  . refine nodup_addresses.map_on (fun a ha b hb => IpNet.row_inj ?_ ?_)
    . exact Nat.lt_of_le_of_lt (hrange a ha).2 hlast
    . exact Nat.lt_of_le_of_lt (hrange b hb).2 hlast
  . intro row hrow
    have ⟨ip, hip, heq⟩ := mem_map.mp hrow
    exact ⟨ip, contains_of_mem hok hgw.contains hip, heq.symm⟩
  . intro row
    simp only [List.mem_map, mem_addresses_iff hok hgw.contains hcount, @eq_comm _ row]
  . intro hstart hend
    have heq := @IpNet.last_eq net
    have hpos := @IpNet.addressCount_pos net
    have hgate := hgw.ends hstart hend
    have hstartAddr : args.startAddr net = inc net.first := if_pos hstart
    have hendAddr : args.endAddr net = dec net.last := if_pos hend
    have hnot : ∀ ip < 2 ^ 32, ip ∉ args.addresses net → net.row ip ∉ (args.addresses net).map net.row := by
      intro ip hip hnot hmem
      have ⟨n, hn, hrow⟩ := mem_map.mp hmem
      exact hnot (IpNet.row_inj (Nat.lt_of_le_of_lt (hrange n hn).2 hlast) hip hrow ▸ hn)
    constructor
    . apply hnot _ (by omega)
      rw [mem_addresses_iff hok hgw.contains hcount, hstartAddr, hendAddr, inc, dec]
      omega
    . apply hnot _ hlast
      rw [mem_addresses_iff hok hgw.contains hcount, hstartAddr, hendAddr, inc, dec]
      omega

theorem gatewayInside_of_exact (h : WellFormed args) (hexact : Exact args net ((args.addresses net).map net.row))
    : GatewayInside args net := by
  have hmem : net.row (args.gatewayAddr net) ∈ (args.addresses net).map net.row :=
    mem_map_of_mem (mem_addresses.mpr (.inr rfl))
  constructor
  . have ⟨ip, hin, heq⟩ := hexact.inside _ hmem
    have hlast := @IpNet.last_lt net
    have hrange := IpNet.contains_iff.mp hin
    rw [IpNet.row_inj h.gatewayAddr_lt (by omega) heq]
    exact hin
  . intro hstart hend
    have ⟨hfirst, hlast⟩ := hexact.ends hstart hend
    exact ⟨fun heq => hfirst (heq ▸ hmem), fun heq => hlast (heq ▸ hmem)⟩

theorem exact_addresses_iff (hcidr : cidr.Correct) (h : WellFormed args) (hlow : 5 ≤ net.addressCount)
    (hhigh : net.addressCount ≤ 1000)
    : ((∃ ip, parse (args.startText cidr net) = some ip ∧
          ∀ fuel, net.addressCount < fuel →
            addressLoop cidr net (net.cidr (args.gatewayText cidr net)) (args.endText cidr net) fuel ip ≠ none) ∧
        ∀ rows, args.create cidr net = some rows → Exact args net rows)
        ↔
      (Accepted args net → GatewayInside args net) := by
  constructor
  . intro ⟨_, hexact⟩ hok
    apply gatewayInside_of_exact h
    apply hexact
    rw [create_eq hcidr h hlow hhigh, if_pos hok]
  . intro hgw
    refine ⟨⟨args.loopStart net, ?_, ?_⟩, ?_⟩
    . rw [(h.start_eq hcidr).1, parse_format (h.start_eq hcidr).2.1]
    . intro fuel hfuel
      rw [addressLoop_create hcidr h hhigh hfuel]
      exact some_ne_none _
    . intro rows hrows
      rw [create_eq hcidr h hlow hhigh] at hrows
      split at hrows
      . next hok =>
        rw [← some.inj hrows]
        exact exact_addresses hhigh hok (hgw hok)
      . contradiction

def smallNet : IpNet := ⟨3232235776, 29, by decide, by decide⟩

def gatewayOnly (gateway : String) : SubnetArgs := ⟨gateway.toList, [], []⟩

theorem wellFormed_gatewayOnly {gateway : String} (h : (parse gateway.toList).isSome)
    : WellFormed (gatewayOnly gateway) :=
  ⟨.inr h, .inl rfl, .inl rfl⟩

theorem exact_gateway_in_the_middle
    : ∃ rows, (gatewayOnly "192.168.1.3").create .exact smallNet = some rows ∧
        Exact (gatewayOnly "192.168.1.3") smallNet rows := by
  have ⟨rows, hrows⟩ := Option.isSome_iff_exists.mp
    (show ((gatewayOnly "192.168.1.3").create .exact smallNet).isSome by decide +kernel)
  have hexact := @exact_addresses_iff (gatewayOnly "192.168.1.3") .exact smallNet CidrPackage.exact_correct
    (wellFormed_gatewayOnly (by decide +kernel)) (by decide) (by decide)
  exact ⟨rows, hrows, (hexact.mpr (fun _ => ⟨by decide +kernel, fun _ _ => by decide +kernel⟩)).2 rows hrows⟩

theorem gateway_row_outside
    : ∃ rows, (gatewayOnly "10.0.0.1").create .exact smallNet = some rows ∧ "10.0.0.1/29".toList ∈ rows ∧
        ¬Exact (gatewayOnly "10.0.0.1") smallNet rows := by
  have hargs : WellFormed (gatewayOnly "10.0.0.1") := wellFormed_gatewayOnly (by decide +kernel)
  have hok : Accepted (gatewayOnly "10.0.0.1") smallNet := by decide +kernel
  refine ⟨_, (create_eq CidrPackage.exact_correct hargs (by decide) (by decide)).trans (if_pos hok), ?_, ?_⟩
  . decide +kernel
  . intro hexact
    have hin := (gatewayInside_of_exact hargs hexact).contains
    revert hin
    decide +kernel

end Create

end SubnetArgs

end Web
