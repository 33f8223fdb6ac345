import Cloudland.Web.Network.Holders

/-!
How many second addresses an interface has after `changeAddresses` without public IPs (`routes/interface.go`).
-/

namespace Web.NetDB

open List Table

section Model

/-
The calls of `AllocateAddress` are numbered; `fails` says which of them fail whatever the table holds.
-/
variable (fails : Nat → Bool)

def tryAllocate (db : NetDB) (call : Nat) (subnet : Subnet) (ifaceID : Nat) : Option (NetDB × Address) :=
  if fails call then none else db.allocateAddress subnet ifaceID .empty .second

def tryAttempts (inst : Instance) (ifaceID wanted : Nat) (subnet : Subnet)
    : Nat → NetDB × Nat × Nat → NetDB × Nat × Nat
  | 0, res => res
  | n + 1, (db, cnt, call) =>
    if wanted ≤ cnt then
      (db, cnt, call)
    else
      match db.tryAllocate fails call subnet ifaceID with
      | some (db, addr) =>
        let db := if subnet.type = .publicSubnet then db.createDummyFloatingIp inst addr.address else db
        tryAttempts inst ifaceID wanted subnet n (db, cnt + 1, call + 1)
      | none => tryAttempts inst ifaceID wanted subnet n (db, cnt, call + 1)

def tryAllocateSecond (db : NetDB) (inst : Instance) (ifaceID : Nat) (ifaceSubnets : List Subnet)
    (secondAddrsCount : Nat) : Option NetDB :=
  let res := ifaceSubnets.foldl
    (fun res subnet => tryAttempts fails inst ifaceID secondAddrsCount subnet secondAddrsCount res) (db, 0, 0)
  if res.2.1 < secondAddrsCount then none else some res.1

def tryChangeAddresses (db : NetDB) (inst : Instance) (iface : LoadedInterface) (ifaceSubnets : List Subnet)
    (secondAddrsCount : Nat) : Option NetDB :=
  if iface.secondAddresses.length < secondAddrsCount then
    db.tryAllocateSecond fails inst iface.row.id ifaceSubnets (secondAddrsCount - iface.secondAddresses.length)
  else
    some (changeAddresses.shrink db
      (iface.secondAddresses.take (iface.secondAddresses.length - secondAddrsCount)))

end Model

section Link

variable {db : NetDB} {inst : Instance} {ifaceID wanted : Nat} {subnet : Subnet}

theorem tryAttempts_never {n cnt call : Nat}
    : ∃ call', tryAttempts (fun _ => false) inst ifaceID wanted subnet n (db, cnt, call)
        =
      ((allocateSecondAddresses.attempts inst ifaceID wanted subnet n (db, cnt)).1,
        (allocateSecondAddresses.attempts inst ifaceID wanted subnet n (db, cnt)).2, call') := by
  induction n generalizing db cnt call with
  | zero => exact ⟨call, rfl⟩
  | succ n ih =>
    rw [tryAttempts, allocateSecondAddresses.attempts]
    split
    . exact ⟨call, rfl⟩
    . rw [tryAllocate, if_neg Bool.false_ne_true]
      cases db.allocateAddress subnet ifaceID .empty .second with
      | some res => exact ih
      | none => exact ih

theorem foldl_tryAttempts_never {subnets : List Subnet} {cnt call : Nat}
    : ∃ call', subnets.foldl (fun res subnet => tryAttempts (fun _ => false) inst ifaceID wanted subnet wanted res)
          (db, cnt, call)
        =
      ((subnets.foldl (fun res subnet => allocateSecondAddresses.attempts inst ifaceID wanted subnet wanted res)
          (db, cnt)).1,
        (subnets.foldl (fun res subnet => allocateSecondAddresses.attempts inst ifaceID wanted subnet wanted res)
          (db, cnt)).2, call') := by
  induction subnets generalizing db cnt call with
  | nil => exact ⟨call, rfl⟩
  | cons subnet subnets ih =>
    have ⟨call', hfirst⟩ := @tryAttempts_never db inst ifaceID wanted subnet wanted cnt call
    rw [foldl_cons, foldl_cons, hfirst]
    exact ih

theorem tryChangeAddresses_never
    : db.tryChangeAddresses (fun _ => false) inst iface subnets wanted
        =
      db.changeAddresses inst iface subnets wanted [] := by
  rw [tryChangeAddresses, changeAddresses]
  split
  . rw [tryAllocateSecond, allocateSecondAddresses]
    obtain ⟨call', hfold⟩ := @foldl_tryAttempts_never db inst iface.row.id
      (wanted - iface.secondAddresses.length) subnets 0 0
    rw [hfold]
  . rfl

end Link

def free (db : NetDB) (subnet : Subnet) : List Nat := (db.addresses.filter (available subnet .empty)).map Address.id

def tries (fails : Nat → Bool) (call n : Nat) : Nat := ((range' call n).filter (fun c => !fails c)).length

def obtainable (fails : Nat → Bool) (db : NetDB) (wanted : Nat) : Nat → List Nat → List Subnet → List Nat
  | _, _, [] => []
  | call, taken, subnet :: subnets =>
    let got := ((db.free subnet).filter (· ∉ taken)).take (tries fails call wanted)
    got ++ obtainable fails db wanted (call + wanted) (taken ++ got) subnets

def bookAll (addresses : Table Address) (ifaceID : Nat) (taken : List Nat) : Table Address :=
  addresses.update (fun r => decide (r.id ∈ taken)) (booked ifaceID .second)

section ClosedForm

variable {db db' db₀ : NetDB} {inst : Instance} {ifaceID wanted : Nat} {subnet : Subnet} {fails : Nat → Bool}
  {taken picks : List Nat}

theorem bookAll_bookAll
    : bookAll (bookAll t ifaceID taken) ifaceID picks = bookAll t ifaceID (taken ++ picks) := by
  refine ext_rows ?_ rfl
  show map _ (map _ _) = map _ _
  rw [map_map]
  apply map_congr_left
  intro r _
  by_cases htaken : r.id ∈ taken
  . by_cases hpicks : r.id ∈ picks
    . simp [htaken, hpicks, booked, Keyed.key, Keyed.setKey]
    . simp [htaken, hpicks, booked, Keyed.key, Keyed.setKey]
  . by_cases hpicks : r.id ∈ picks
    . simp [htaken, hpicks]
    . simp [htaken, hpicks]

theorem bookAll_nil : bookAll t ifaceID [] = t := by
  refine ext_rows ?_ rfl
  show map _ _ = _
  simp

theorem free_nodup : (db.free subnet).Nodup :=
  db.addresses.nodup.sublist (filter_sublist.map _)

theorem mem_free : a ∈ db.free subnet ↔ ∃ r ∈ db.addresses, available subnet .empty r ∧ r.id = a := by
  simp only [free, mem_map, Table.mem_filter]
  exact exists_congr (fun r => and_assoc)

theorem free_bookAll (h : db.addresses = bookAll db₀.addresses ifaceID taken)
    : db.free subnet = (db₀.free subnet).filter (· ∉ taken) := by
  rw [free, h, free]
  show map _ (filter _ (map _ _)) = filter _ (map _ (filter _ _))
  rw [filter_map, map_map, filter_map, filter_filter]
  rw [filter_congr (q := fun r => decide (r.id ∉ taken) && available subnet .empty r)]
  . apply map_congr_left
    intro r hr
    have hboth := of_mem_filter hr
    rw [Bool.and_eq_true, decide_eq_true_eq] at hboth
    simp [hboth.1]
  . intro r _
    by_cases htaken : r.id ∈ taken
    . simp [htaken, available, booked, Keyed.setKey]
    . simp [htaken]

theorem allocateAddress_of_free_nil (h : db.free subnet = [])
    : db.allocateAddress subnet ifaceID .empty addrType = none := by
  have hnone : db.addresses.find? (available subnet .empty) = none := by
    rw [Table.find?, ← head?_filter]
    exact head?_eq_none_iff.mpr (map_eq_nil_iff.mp h)
  rw [allocateAddress, hnone]
  rfl

theorem find?_of_free_cons (h : db.free subnet = a :: rest)
    : ∃ r, db.addresses.find? (available subnet .empty) = some r ∧ r.id = a := by
  have ⟨r, rs, hfilter, hid, _⟩ := map_eq_cons_iff.mp h
  refine ⟨r, ?_, hid⟩
  rw [Table.find?, ← head?_filter]
  show (db.addresses.filter (available subnet .empty)).head? = _
  rw [hfilter]
  rfl

theorem allocateAddress_of_free_cons {a : Nat} {rest : List Nat} (h : db.free subnet = a :: rest)
    : ∃ db' row, db.allocateAddress subnet ifaceID .empty .second = some (db', row) ∧
        db'.addresses = bookAll db.addresses ifaceID [a] := by
  have ⟨r, hfind, hid⟩ := find?_of_free_cons h
  have hmem := (find?_eq_some hfind).1
  have halloc : db.allocateAddress subnet ifaceID .empty .second
      = some (db.updateAddresses (fun x => x.id == r.id) (fun x => { x with
          allocated := true
          type := .second
          secondInterface := ifaceID
          interface := r.interface }), booked ifaceID .second r) := by
    rw [allocateAddress, hfind]
    rfl
  refine ⟨_, _, halloc, ext_rows ?_ rfl⟩
  show map _ _ = map _ _
  apply map_congr_left
  intro x hx
  by_cases hxr : x.id = r.id
  . have hsame : x = r := eq_of_key hx hmem hxr
    subst hsame
    simp [booked, hid]
  . have hxa : ¬x.id = a := hid ▸ hxr
    simp [hxr, hxa]

theorem tries_succ : tries fails call (n + 1) = (if fails call then 0 else 1) + tries fails (call + 1) n := by
  rw [tries, range'_succ, filter_cons]
  cases fails call with
  | true => simp [tries]
  | false =>
    simp only [tries, Bool.not_false, if_true, length_cons, Bool.false_eq_true, if_false]
    omega

structure Took (db₀ : NetDB) (ifaceID wanted : Nat) (taken : List Nat) (call : Nat) (res : NetDB × Nat × Nat)
    : Prop where
  addresses : res.1.addresses = bookAll db₀.addresses ifaceID taken
  count : res.2.1 = taken.length
  next : taken.length < wanted → res.2.2 = call

theorem filter_of_filter_eq_cons {l : List Nat} (hl : l.Nodup) (h : l.filter (· ∉ taken) = a :: rest)
    : l.filter (· ∉ taken ++ [a]) = rest := by
  have hnodup := h ▸ hl.filter _
  have hboth : l.filter (· ∉ taken ++ [a]) = (l.filter (· ∉ taken)).filter (· ≠ a) := by
    rw [filter_filter]
    apply filter_congr
    intro b _
    by_cases hb : b = a
    . simp [hb]
    . simp [hb]
  rw [hboth, h, filter_cons_of_neg (by simp), filter_eq_self]
  intro b hb
  rw [decide_eq_true_eq]
  intro heq
  exact (nodup_cons.mp hnodup).1 (heq ▸ hb)

theorem Took.tryAttempts {n call : Nat} {res : NetDB × Nat × Nat} (h : Took db₀ ifaceID wanted taken call res)
    : Took db₀ ifaceID wanted
        (taken ++ ((db₀.free subnet).filter (· ∉ taken)).take (min (tries fails call n) (wanted - taken.length)))
        (call + n) (tryAttempts fails inst ifaceID wanted subnet n res) := by
  induction n generalizing res taken call with
  | zero =>
    have hnone : min (tries fails call 0) (wanted - taken.length) = 0 := Nat.zero_min _
    rw [hnone, take_zero, append_nil]
    exact h
  | succ n ih =>
    have ⟨db, cnt, next⟩ := res
    have hcount : cnt = taken.length := h.count
    rw [NetDB.tryAttempts]
    split
    . next hreached =>
      rw [Nat.sub_eq_zero_of_le (hcount ▸ hreached), Nat.min_zero, take_zero, append_nil]
      exact ⟨h.addresses, h.count, fun hlt => absurd hlt (Nat.not_lt.mpr (hcount ▸ hreached))⟩
    . next hmore =>
      have hlt : taken.length < wanted := hcount ▸ Nat.not_le.mp hmore
      have hnext : next = call := h.next hlt
      have hskip : Took db₀ ifaceID wanted taken (call + 1) (db, cnt, next + 1) :=
        ⟨h.addresses, h.count, fun _ => by rw [← hnext]⟩
      have hfree := @free_bookAll db db₀ ifaceID subnet taken h.addresses
      rw [show call + (n + 1) = call + 1 + n by omega, tries_succ, tryAllocate, hnext]
      rw [hnext] at hskip
      cases hfails : fails call with
      | true =>
        simp only [if_true, Nat.zero_add]
        exact ih hskip
      | false =>
        cases hrest : (db₀.free subnet).filter (· ∉ taken) with
        | nil =>
          rw [allocateAddress_of_free_nil (hfree.trans hrest)]
          have hlast := @ih taken (call + 1) _ hskip
          rw [hrest, take_nil] at hlast
          rw [take_nil]
          exact hlast
        | cons a rest =>
          have ⟨db₁, row, halloc, haddr⟩ :=
            @allocateAddress_of_free_cons db ifaceID subnet a rest (hfree.trans hrest)
          have htook : Took db₀ ifaceID wanted (taken ++ [a]) (call + 1)
              (if subnet.type = .publicSubnet then db₁.createDummyFloatingIp inst row.address else db₁, cnt + 1,
                call + 1) := by
            refine ⟨?_, ?_, fun _ => rfl⟩
            . rw [← bookAll_bookAll, ← h.addresses, ← haddr]
              dsimp only
              split <;> rfl
            . rw [length_append, length_singleton, ← hcount]
          have hlast := ih htook
          have hmin : min (1 + tries fails (call + 1) n) (wanted - taken.length)
              = min (tries fails (call + 1) n) (wanted - (taken ++ [a]).length) + 1 := by
            rw [length_append, length_singleton]
            omega
          rw [filter_of_filter_eq_cons free_nodup hrest, append_assoc, singleton_append,
            ← take_succ_cons, ← hmin] at hlast
          rw [halloc]
          exact hlast

theorem Took.foldl {subnets : List Subnet} {call : Nat} {res : NetDB × Nat × Nat}
    (h : Took db₀ ifaceID wanted taken call res)
    : ∃ call', Took db₀ ifaceID wanted
        (taken ++ (obtainable fails db₀ wanted call taken subnets).take (wanted - taken.length)) call'
        (subnets.foldl (fun res subnet => NetDB.tryAttempts fails inst ifaceID wanted subnet wanted res) res) := by
  induction subnets generalizing res taken call with
  | nil =>
    rw [obtainable, take_nil, append_nil]
    exact ⟨call, h⟩
  | cons subnet subnets ih =>
    have hfirst := @Took.tryAttempts db₀ inst ifaceID wanted subnet fails taken wanted call res h
    rw [obtainable, foldl_cons]
    generalize hgot : ((db₀.free subnet).filter (· ∉ taken)).take (tries fails call wanted) = got
    have htake : ((db₀.free subnet).filter (· ∉ taken)).take (min (tries fails call wanted) (wanted - taken.length))
        = got.take (wanted - taken.length) := by
      rw [← hgot, take_take, Nat.min_comm]
    rw [htake] at hfirst
    by_cases hall : taken.length + got.length < wanted
    . have hwhole : got.take (wanted - taken.length) = got := take_of_length_le (by omega)
      rw [hwhole] at hfirst
      have ⟨call', hrest⟩ := ih hfirst
      refine ⟨call', ?_⟩
      rw [take_append, hwhole, ← append_assoc, Nat.sub_sub, ← length_append]
      exact hrest
    . have hlen : (taken ++ got.take (wanted - taken.length)).length = max taken.length wanted := by
        rw [length_append, length_take]
        omega
      have ⟨call', hrest⟩ := ih hfirst
      have hzero : wanted - (taken ++ got.take (wanted - taken.length)).length = 0 := by
        rw [hlen]
        omega
      refine ⟨call', ?_⟩
      rw [hzero, take_zero, append_nil] at hrest
      rw [take_append, show wanted - taken.length - got.length = 0 by omega, take_zero, append_nil]
      exact hrest

theorem tryAllocateSecond_eq {subnets : List Subnet}
    : if (obtainable fails db wanted 0 [] subnets).length < wanted then
        db.tryAllocateSecond fails inst ifaceID subnets wanted = none
      else
        ∃ db', db.tryAllocateSecond fails inst ifaceID subnets wanted = some db' ∧
          db'.addresses = bookAll db.addresses ifaceID ((obtainable fails db wanted 0 [] subnets).take wanted) := by
  have hstart : Took db ifaceID wanted [] 0 (db, 0, 0) := ⟨bookAll_nil.symm, rfl, fun _ => rfl⟩
  have ⟨call, h⟩ := @Took.foldl db inst ifaceID wanted fails [] subnets 0 _ hstart
  rw [nil_append, length_nil, Nat.sub_zero] at h
  have hcount := h.count
  rw [length_take] at hcount
  rw [tryAllocateSecond]
  split
  . next hfew => rw [if_pos (by omega)]
  . next hfew => exact ⟨_, if_neg (by omega), h.addresses⟩

theorem exists_of_mem_obtainable (h : a ∈ obtainable fails db wanted call taken subnets)
    : a ∉ taken ∧ ∃ subnet ∈ subnets, a ∈ db.free subnet := by
  induction subnets generalizing call taken with
  | nil => contradiction
  | cons subnet subnets ih =>
    rw [obtainable] at h
    obtain hgot | hrest := mem_append.mp h
    . have ⟨hfree, hnot⟩ := mem_filter.mp (mem_of_mem_take hgot)
      exact ⟨by simpa using hnot, subnet, mem_cons_self, hfree⟩
    . have ⟨hnot, s, hs, hfree⟩ := ih hrest
      exact ⟨fun hmem => hnot (mem_append_left _ hmem), s, mem_cons_of_mem _ hs, hfree⟩

theorem obtainable_nodup : (obtainable fails db wanted call taken subnets).Nodup := by
  induction subnets generalizing call taken with
  | nil => exact nodup_nil
  | cons subnet subnets ih =>
    rw [obtainable, nodup_append]
    refine ⟨(free_nodup.filter _).sublist (take_sublist _ _), ih, ?_⟩
    intro a ha b hb heq
    have ⟨hnot, _⟩ := exists_of_mem_obtainable hb
    exact hnot (mem_append_right _ (heq ▸ ha))

end ClosedForm

section Count

variable {ifaceID : Nat} {picks : List Nat} {t : Table Address}

def seconds (t : Table Address) (ifaceID : Nat) : List Address := t.filter (fun r => r.secondInterface == ifaceID)

theorem countP_or_add_countP_and (p q : α → Bool) (l : List α)
    : l.countP (fun a => p a || q a) + l.countP (fun a => p a && q a) = l.countP p + l.countP q := by
  induction l with
  | nil => rfl
  | cons a l ih =>
    simp only [countP_cons]
    cases p a with
    | true =>
      cases q a with
      | true =>
        simp only [Bool.or_self, Bool.and_self, if_true]
        omega
      | false =>
        simp only [Bool.or_false, Bool.and_false, if_true, Bool.false_eq_true, if_false]
        omega
    | false =>
      cases q a with
      | true =>
        simp only [Bool.or_true, Bool.false_and, if_true, Bool.false_eq_true, if_false]
        omega
      | false =>
        simp only [Bool.or_self, Bool.and_self, Bool.false_eq_true, if_false]
        omega

section Nodup

variable (hnodup : picks.Nodup) (hrows : ∀ a ∈ picks, ∃ r ∈ t, r.id = a)

include hnodup hrows

theorem countP_ids : t.rows.countP (fun r => decide (r.id ∈ picks)) = picks.length := by
  have hids : (t.rows.map Address.id).Nodup := t.nodup
  have hperm : ((t.rows.map Address.id).filter (fun a => decide (a ∈ picks))).Perm picks := by
    rw [perm_ext_iff_of_nodup (hids.filter _) hnodup]
    intro a
    rw [mem_filter, mem_map, decide_eq_true_eq]
    exact ⟨fun h => h.2, fun h => ⟨hrows a h, h⟩⟩
  rw [← hperm.length_eq, ← countP_eq_length_filter, countP_map]
  rfl

theorem length_seconds_bookAll
    : (seconds (bookAll t ifaceID picks) ifaceID).length
        + t.rows.countP (fun r => decide (r.id ∈ picks) && r.secondInterface == ifaceID)
        =
      picks.length + (seconds t ifaceID).length := by
  have hsum := countP_or_add_countP_and (fun r : Address => decide (r.id ∈ picks))
    (fun r => r.secondInterface == ifaceID) t.rows
  rw [countP_ids hnodup hrows] at hsum
  have hleft : (seconds (bookAll t ifaceID picks) ifaceID).length
      = t.rows.countP (fun r => decide (r.id ∈ picks) || r.secondInterface == ifaceID) := by
    show (filter _ (map _ _)).length = _
    rw [← countP_eq_length_filter, countP_map]
    apply countP_congr
    intro r _
    by_cases hr : r.id ∈ picks
    . simp [hr, booked, Keyed.setKey]
    . simp [hr]
  rw [hleft, hsum]
  congr 1
  exact countP_eq_length_filter

theorem length_seconds_bookAll_iff
    : (seconds (bookAll t ifaceID picks) ifaceID).length = (seconds t ifaceID).length + picks.length
        ↔
      ∀ r ∈ t, r.id ∈ picks → r.secondInterface ≠ ifaceID := by
  have hsum := @length_seconds_bookAll ifaceID picks t hnodup hrows
  have hzero : (seconds (bookAll t ifaceID picks) ifaceID).length = (seconds t ifaceID).length + picks.length
      ↔ t.rows.countP (fun r => decide (r.id ∈ picks) && r.secondInterface == ifaceID) = 0 := by omega
  rw [hzero, countP_eq_zero]
  simp only [Bool.and_eq_true, decide_eq_true_eq, beq_iff_eq, not_and]
  rfl

end Nodup

theorem seconds_shrink {db : NetDB} {released : List Address} (hid : ifaceID ≠ 0)
    : seconds (changeAddresses.shrink db released).addresses ifaceID
        =
      (seconds db.addresses ifaceID).filter (fun r => decide (r.id ∉ released.map Address.id)) := by
  induction released generalizing db with
  | nil =>
    show seconds db.addresses ifaceID = _
    simp
  | cons addr released ih =>
    have hfirst : seconds (db.updateAddresses (fun r => r.id == addr.id)
        (fun r => { r with secondInterface := 0, allocated := false })).addresses ifaceID
        = (seconds db.addresses ifaceID).filter (fun r => !(r.id == addr.id)) := by
      refine filter_update_of_false ?_
      intro r _
      simp [Keyed.setKey, Ne.symm hid]
    rw [changeAddresses.shrink, foldl_cons]
    refine ih.trans ?_
    rw [hfirst, filter_filter]
    apply filter_congr
    intro r _
    by_cases hr : r.id = addr.id
    . simp [hr]
    . simp [hr]

end Count

def Exact (fails : Nat → Bool) (db : NetDB) (inst : Instance) (iface : LoadedInterface) (subnets : List Subnet)
    (n : Nat) : Prop :=
  let k := iface.secondAddresses.length
  let few := k < n ∧ (obtainable fails db (n - k) 0 [] subnets).length < n - k
  match db.tryChangeAddresses fails inst iface subnets n with
  | none => few
  | some db' =>
    ¬few ∧ (seconds db'.addresses iface.row.id).length = n ∧
      ((seconds db'.addresses iface.row.id).map Address.id).Nodup ∧
      ∀ a ∈ seconds db'.addresses iface.row.id,
        a.id ∈ iface.secondAddresses.map Address.id ∨ (k < n ∧ ∃ subnet ∈ subnets, a.subnetID = subnet.id)

section Exactness

variable {db : NetDB} {inst : Instance} {iface : LoadedInterface} {subnets : List Subnet} {fails : Nat → Bool} {n : Nat}

theorem seconds_nodup : ((seconds t ifaceID).map Address.id).Nodup :=
  t.nodup.sublist (filter_sublist.map _)

theorem length_filter_notMem_take {l : List Address} (hl : (l.map Address.id).Nodup) (m : Nat)
    : (l.filter (fun r => decide (r.id ∉ (l.take m).map Address.id))).length = l.length - m := by
  have hsplit : (l.take m).map Address.id ++ (l.drop m).map Address.id = l.map Address.id := by
    rw [← map_append, take_append_drop]
  have hdisjoint := disjoint_of_nodup_append (hsplit.symm ▸ hl)
  have hfront : (l.take m).filter (fun r => decide (r.id ∉ (l.take m).map Address.id)) = [] := by
    rw [filter_eq_nil_iff]
    intro r hr
    simpa using mem_map_of_mem hr
  have hback : (l.drop m).filter (fun r => decide (r.id ∉ (l.take m).map Address.id)) = l.drop m := by
    rw [filter_eq_self]
    intro r hr
    rw [decide_eq_true_eq]
    exact fun hmem => hdisjoint hmem (mem_map_of_mem hr)
  have hfilter := filter_append (p := fun r => decide (r.id ∉ (l.take m).map Address.id)) (l.take m) (l.drop m)
  rw [take_append_drop, hfront, hback, nil_append] at hfilter
  rw [hfilter, length_drop]

theorem exact_of_le (h : iface.Loaded db) (hle : n ≤ iface.secondAddresses.length)
    : Exact fails db inst iface subnets n := by
  have hid := pos_of_live ⟨_, h.1, rfl⟩
  have hperm : iface.secondAddresses.Perm (seconds db.addresses iface.row.id) := h.2.2.2
  have hids : (iface.secondAddresses.map Address.id).Nodup := (hperm.map _).nodup_iff.mpr seconds_nodup
  have hseconds := @seconds_shrink iface.row.id db
    (iface.secondAddresses.take (iface.secondAddresses.length - n)) hid
  rw [Exact, tryChangeAddresses, if_neg (Nat.not_lt.mpr hle)]
  refine ⟨fun hfew => absurd hfew.1 (Nat.not_lt.mpr hle), ?_, seconds_nodup, ?_⟩
  . rw [hseconds, ← (hperm.filter _).length_eq, length_filter_notMem_take hids]
    omega
  . intro a ha
    rw [hseconds] at ha
    exact .inl (mem_map_of_mem (hperm.mem_iff.mpr (mem_of_mem_filter ha)))

theorem exact_iff_of_lt (h : iface.Loaded db) (hlt : iface.secondAddresses.length < n)
    : Exact fails db inst iface subnets n
        ↔
      (obtainable fails db (n - iface.secondAddresses.length) 0 [] subnets).length
          < n - iface.secondAddresses.length
        ∨
      ∀ r ∈ db.addresses,
        r.id ∈ (obtainable fails db (n - iface.secondAddresses.length) 0 [] subnets).take
          (n - iface.secondAddresses.length) →
        r.secondInterface ≠ iface.row.id := by
  have hperm : iface.secondAddresses.Perm (seconds db.addresses iface.row.id) := h.2.2.2
  have hloop := @tryAllocateSecond_eq db inst iface.row.id (n - iface.secondAddresses.length) fails subnets
  rw [Exact, tryChangeAddresses, if_pos hlt]
  split at hloop
  . next hfew =>
    rw [hloop]
    exact ⟨fun _ => .inl hfew, fun _ => ⟨hlt, hfew⟩⟩
  . next hfew =>
    have ⟨db', hsome, haddr⟩ := hloop
    generalize hpicks : (obtainable fails db (n - iface.secondAddresses.length) 0 [] subnets).take
      (n - iface.secondAddresses.length) = picks at haddr ⊢
    have hlen : picks.length = n - iface.secondAddresses.length := by
      rw [← hpicks, length_take]
      omega
    have hfrom : ∀ a ∈ picks, ∃ subnet ∈ subnets, ∃ r ∈ db.addresses, available subnet .empty r ∧ r.id = a := by
      intro a ha
      rw [← hpicks] at ha
      have ⟨_, subnet, hsubnet, hfree⟩ := exists_of_mem_obtainable (mem_of_mem_take ha)
      exact ⟨subnet, hsubnet, mem_free.mp hfree⟩
    have hrows : ∀ a ∈ picks, ∃ r ∈ db.addresses, r.id = a := by
      intro a ha
      have ⟨_, _, r, hr, _, hid⟩ := hfrom a ha
      exact ⟨r, hr, hid⟩
    have hnodup : picks.Nodup := hpicks ▸ obtainable_nodup.sublist (take_sublist _ _)
    have hcount := @length_seconds_bookAll_iff iface.row.id picks db.addresses hnodup hrows
    rw [hsome]
    dsimp only
    rw [haddr, ← hcount, hlen, ← hperm.length_eq, Nat.add_sub_cancel' (Nat.le_of_lt hlt)]
    constructor
    . intro hexact
      exact .inr hexact.2.1
    . intro hcases
      refine ⟨fun hbad => hfew hbad.2, hcases.resolve_left hfew, seconds_nodup, ?_⟩
      intro a ha
      have ⟨hmem, hsecond⟩ := Table.mem_filter.mp ha
      have ⟨r, hr, har⟩ := Table.mem_update.mp hmem
      by_cases hr' : r.id ∈ picks
      . have ⟨subnet, hsubnet, r', hr'', havail, hid⟩ := hfrom r.id hr'
        have hsame := eq_of_key hr'' hr hid
        rw [if_pos (by simpa using hr')] at har
        refine .inr ⟨hlt, subnet, hsubnet, ?_⟩
        rw [har]
        exact hsame ▸ (available_eq_true havail).1
      . rw [if_neg (by simpa using hr')] at har
        rw [har] at hsecond ⊢
        exact .inl (mem_map_of_mem (hperm.mem_iff.mpr (Table.mem_filter.mpr ⟨hr, hsecond⟩)))

theorem exact_second_addresses_iff (h : iface.Loaded db) (n : Nat) (fails : Nat → Bool)
    : Exact fails db inst iface subnets n
        ↔
      n ≤ iface.secondAddresses.length
        ∨
      (obtainable fails db (n - iface.secondAddresses.length) 0 [] subnets).length
          < n - iface.secondAddresses.length
        ∨
      ∀ r ∈ db.addresses,
        r.id ∈ (obtainable fails db (n - iface.secondAddresses.length) 0 [] subnets).take
          (n - iface.secondAddresses.length) →
        r.secondInterface ≠ iface.row.id := by
  by_cases hle : n ≤ iface.secondAddresses.length
  . exact ⟨fun _ => .inl hle, fun _ => exact_of_le h hle⟩
  . rw [exact_iff_of_lt h (Nat.not_le.mp hle), or_iff_right hle]

end Exactness

section Example

-- the interface after its second address has been taken from it, and the floating IPs as they are loaded then
def shrunkIface : LoadedInterface := { vmIface with secondAddresses := [] }

def usedFip1 : LoadedFip :=
  { fip1 with
    row := ⟨1, some ⟨2, 24⟩, some ⟨2, 24⟩, 7, 0, 0, 1, .publicReserved⟩
    interface := vmIface.row }

def usedFip2 : LoadedFip :=
  { fip2 with
    row := ⟨2, some ⟨3, 24⟩, some ⟨3, 24⟩, 7, 0, 0, 1, .publicReserved⟩
    address := ⟨2, ⟨3, 24⟩, .second, false, false, 1, 2, 0⟩ }

-- the interface after the second floating IP has been added to it again
def grownIface : LoadedInterface := { vmIface with secondAddresses := [⟨2, ⟨3, 24⟩, .second, false, false, 1, 2, 1⟩] }

def takeAndAddAgain : List NetRequest :=
  createVMRequests ++ [.changeAddresses vm vmIface [] 0 [], .changeAddresses vm shrunkIface [] 0 [usedFip1, usedFip2]]

def vmNet : NetDB := (createVMRequests.foldlM NetRequest.exec newNet).get (by decide +kernel)

theorem exact_second_addresses_createVM
    : vmIface.Loaded vmNet ∧ (vmNet.tryChangeAddresses (fun _ => false) vm vmIface [net] 2).isSome ∧
        Exact (fun _ => false) vmNet vm vmIface [net] 2 :=
  have hloaded : vmIface.Loaded vmNet := by decide +kernel
  ⟨hloaded, by decide +kernel,
    (exact_second_addresses_iff hloaded 2 _).mpr (.inr (.inr (by decide +kernel)))⟩

theorem second_address_given_again
    : ∃ db, Run (NetRequest.Step (fun k => k = 1)) newNet takeAndAddAgain db ∧ grownIface.Loaded db ∧
        ¬Exact (fun _ => false) db vm grownIface [net] 2 := by
  refine Run.exists_of_checked (fun db => grownIface.Loaded db ∧
    (db.tryChangeAddresses (fun _ => false) vm grownIface [net] 2).any
      (fun db' => (seconds db'.addresses 1).length == 1)) (by decide +kernel) ?_
  intro db _ ⟨hloaded, hany⟩
  have ⟨db', hdb', hlen⟩ := (Option.any_eq_true _ _).mp hany
  refine ⟨hloaded, ?_⟩
  intro hexact
  rw [Exact, hdb'] at hexact
  have htwo : (seconds db'.addresses 1).length = 2 := hexact.2.1
  rw [htwo] at hlen
  contradiction

end Example

end Web.NetDB
