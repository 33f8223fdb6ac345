import Cloudland.Lib.Run
import Cloudland.Lib.Table

/-!
Zones (`routes/zone.go`). A request that changes a zone reads it first, and the transaction works on that copy.
-/

namespace Web.Zones

open Table

structure Zone where
  id : Nat
  name : String
  isDefault : Bool
  remark : String
  deriving DecidableEq

instance : Keyed Zone where
  key := Zone.id
  setKey zone id := { zone with id }
  key_setKey _ _ := rfl
  setKey_key _ := rfl

structure State where
  zones : Table Zone
  copies : List Zone

inductive Request where
  | get (id : Nat)
  | getByName (name : String)
  | create (admin : Bool) (name : String) (isDefault : Bool) (remark : String)
  | update (admin : Bool) (copy : Nat) (isDefault : Bool) (remark : String)
  | delete (admin : Bool) (copy : Nat) (hyperCount : Nat)

def unset (zones : Table Zone) (p : Zone → Bool) : Table Zone :=
  zones.update (fun zone => zone.isDefault && p zone) ({ · with isDefault := false })

-- names are unique, a second zone of a name rolls the transaction back
def create (zones : Table Zone) (name : String) (isDefault : Bool) (remark : String) : Table Zone :=
  if (zones.find? (·.name == name)).isSome then
    zones
  else
    (if isDefault then unset zones (fun _ => true) else zones).insert ⟨0, name, isDefault, remark⟩

def update (zones : Table Zone) (zone : Zone) (isDefault : Bool) (remark : String) : Table Zone :=
  (if isDefault && !zone.isDefault then unset zones (·.id != zone.id) else zones).update (·.id == zone.id)
    ({ · with isDefault, remark })

def delete (zones : Table Zone) (zone : Zone) (hyperCount : Nat) : Table Zone :=
  if 0 < hyperCount then zones else zones.delete (·.id == zone.id)

def State.change (s : State) (admin : Bool) (copy : Nat) (f : Zone → Table Zone) : State :=
  match s.copies[copy]? with
  | some zone => ⟨if admin then f zone else s.zones, s.copies.eraseIdx copy⟩
  | none => s

def step (s : State) : Request → State
  | .get id => { s with copies := s.copies ++ (s.zones.take id).toList }
  | .getByName name => { s with copies := s.copies ++ (s.zones.find? (·.name == name)).toList }
  | .create admin name isDefault remark => if admin then { s with zones := create s.zones name isDefault remark } else s
  | .update admin copy isDefault remark => s.change admin copy (update s.zones · isDefault remark)
  | .delete admin copy hyperCount => s.change admin copy (delete s.zones · hyperCount)

def OneDefault (zones : Table Zone) : Prop :=
  ∀ a ∈ zones, ∀ b ∈ zones, a.isDefault → b.isDefault → a.id = b.id

/--
A zone that was the default when the request read it is made the default only while no other zone is.
-/
def Current (s : State) : Request → Prop
  | .update true copy true _ => ∀ zone, s.copies[copy]? = some zone → zone.isDefault →
      ∀ a ∈ s.zones, a.id = zone.id → ∀ b ∈ s.zones, b.isDefault → b.id = zone.id
  | _ => True

@[simp]
theorem setKey_eq (zone : Zone) (id : Nat) : Keyed.setKey zone id = { zone with id } := rfl

@[simp]
theorem key_eq (zone : Zone) : Keyed.key zone = zone.id := rfl

theorem create_oneDefault (h : OneDefault zones) : OneDefault (create zones name isDefault remark) := by
  unfold create
  split
  . exact h
  . cases isDefault with
    | true =>
      simp only [OneDefault, mem_insert, unset, mem_update, ↓reduceIte, setKey_eq]
      grind
    | false =>
      simp only [OneDefault, mem_insert, setKey_eq]
      grind [OneDefault]

theorem delete_oneDefault (h : OneDefault zones) : OneDefault (delete zones zone hyperCount) := by
  unfold delete
  split
  . exact h
  . intro a ha b hb
    exact h a (mem_delete.mp ha).1 b (mem_delete.mp hb).1

theorem update_oneDefault_iff (h : OneDefault zones)
    : OneDefault (update zones zone isDefault remark)
        ↔
      (isDefault → zone.isDefault → ∀ a ∈ zones, a.id = zone.id → ∀ b ∈ zones, b.isDefault → b.id = zone.id) := by
  unfold update
  split
  . next hunset =>
    simp only [OneDefault, unset, forall_mem_update, setKey_eq, key_eq]
    grind
  . next hkeep =>
    simp only [OneDefault, forall_mem_update, setKey_eq, key_eq]
    grind [OneDefault]

theorem step_oneDefault_iff (h : OneDefault s.zones) (req : Request)
    : OneDefault (step s req).zones ↔ Current s req := by
  cases req with
  | get => exact iff_of_true h trivial
  | getByName => exact iff_of_true h trivial
  | create admin =>
    apply iff_of_true _ trivial
    cases admin with
    | true => exact create_oneDefault h
    | false => exact h
  | update admin copy isDefault =>
    simp only [step, State.change]
    cases hcopy : s.copies[copy]? with
    | none => cases admin <;> cases isDefault <;> simp [Current, hcopy, h]
    | some zone => cases admin <;> cases isDefault <;> simp [Current, hcopy, h, update_oneDefault_iff]
  | delete admin =>
    apply iff_of_true _ trivial
    simp only [step, State.change]
    split
    . cases admin with
      | true => exact delete_oneDefault h
      | false => exact h
    . exact h

theorem oneDefault_along_iff (zones : { zones // OneDefault zones }) (reqs : List Request)
    : Along step (fun s req => OneDefault (step s req).zones) ⟨zones, []⟩ reqs
        ↔
      Along step Current ⟨zones, []⟩ reqs := by
  apply Along.iff_of_invariant (fun s => OneDefault s.zones)
  . exact fun s req h => step_oneDefault_iff h req
  . exact fun s req h => (step_oneDefault_iff h req).mpr
  . exact zones.2

theorem stale_copy_two_defaults
    : ¬Along step (fun s req => OneDefault (step s req).zones) ⟨.empty, []⟩
        [.create true "a" true "", .create true "b" false "", .getByName "a", .getByName "b",
          .update true 1 true "", .update true 0 true ""] := by
  intro h
  have hlast := h.2.2.2.2.2.1 ⟨1, "a", true, ""⟩ (by decide) ⟨2, "b", true, ""⟩ (by decide) rfl rfl
  cases hlast

end Web.Zones
