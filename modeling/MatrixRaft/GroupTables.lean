/-
# GroupTables — groups that several tables hold

`Applier` lists a group in its own table and in its worker pool, `SnapshotPools` in its own and
in the pools of the four phases.  Registering and cancelling take the locks one after another,
and a call on the same key can come between two locks.
-/
import MatrixRaft.Theory.Registry

namespace MatrixRaft
open Theory

structure DriverGroupKey where
  (groupId nodeId : Nat)
  deriving DecidableEq

inductive SnapshotPhase where
  | create | send | download | load
  deriving DecidableEq

def SnapshotPhase.all : List SnapshotPhase := [.create, .send, .download, .load]

section Groups
variable {Table : Type} [DecidableEq Table] (tables : List Table) (undo : Bool)

def groupStep (rows : DriverGroupKey → Row Table) (call : DriverGroupKey × RowAction) :
    DriverGroupKey → Row Table :=
  Function.update rows call.1 ((rows call.1).step tables undo call.2)

def runGroups (calls : List (DriverGroupKey × RowAction)) : DriverGroupKey → Row Table :=
  calls.foldl (groupStep tables undo) fun _ => .empty

def KeptApart (may : Listing Table → Prop) : List (DriverGroupKey × RowAction) → Prop :=
  Along (groupStep tables undo) (fun rows call => (rows call.1).Apart call.2 ∧
    (call.2 = .register → (rows call.1).front = true → may (rows call.1).toListing)) fun _ => .empty

variable {tables undo}

theorem KeptApart.orderly {may : Listing Table → Prop} {calls : List (DriverGroupKey × RowAction)}
    (apart : KeptApart tables undo may calls) (distinct : tables.Nodup) (key : DriverGroupKey) :
    (runGroups tables undo calls key).Orderly tables may := by
  have begun : ∀ key : DriverGroupKey, (fun _ => Row.empty : _ → Row Table) key |>.Orderly tables may :=
    fun _ => ⟨nofun, fun _ _ _ => rfl, Nat.zero_le _, nofun⟩
  refine Along.invariant (P := fun rows => ∀ key, (rows key).Orderly tables may) ?_ begun apart key
  intro rows call orderly ⟨apart, fine⟩ other
  by_cases is : other = call.1
  · rw [is, groupStep, Function.update_self]
    exact (orderly call.1).step distinct apart fine
  · rw [groupStep, Function.update_of_ne is]
    exact orderly other

end Groups

def group : DriverGroupKey := ⟨1, 1⟩

/-! ## The applier -/

namespace Applier

/-- The pool's refusal is returned as it is, and the applier's own entry stays. -/
def run : List (DriverGroupKey × RowAction) → DriverGroupKey → Row Unit := runGroups [()] false

/-- **The applier.** A key no call is under way for is in both tables or in neither, and a refused
registration has changed neither. -/
theorem tables_agree (calls : List (DriverGroupKey × RowAction))
    (apart : KeptApart [()] false (fun _ => True) calls) (key : DriverGroupKey) :
    ((run calls key).calls = [] →
      (run calls key).back () = (run calls key).front) ∧
    ∀ refusal ∈ (run calls key).refused, refusal.1 = refusal.2 := by
  have orderly := apart.orderly (by decide) key
  exact ⟨fun none => orderly.agree none () (by simp), fun refusal member =>
    (orderly.unchanged refusal member).1⟩

theorem tables_agree_registered :
    (run [(group, .register), (group, .advance 0), (group, .advance 0)] group).back () = true :=
  (tables_agree [(group, .register), (group, .advance 0), (group, .advance 0)]
    ⟨⟨by simp [Row.Apart, Row.empty], fun _ _ => trivial⟩, ⟨trivial, nofun⟩, ⟨trivial, nofun⟩,
      trivial⟩ group).1 rfl

/-- A group cancelled between the two tables of its registration stays in the pool; one registered
between those of its cancellation leaves an entry. -/
theorem tables_part : (∃ row, row = run [(group, .register), (group, .cancel), (group, .advance 1),
        (group, .advance 1), (group, .advance 0), (group, .advance 0)] group ∧
      row.calls = [] ∧ row.front = false ∧ row.back () = true) ∧
    ∃ row, row = run [(group, .register), (group, .advance 0), (group, .advance 0),
        (group, .cancel), (group, .register), (group, .advance 1), (group, .advance 0),
        (group, .advance 0)] group ∧ row.calls = [] ∧ row.front = true ∧ row.back () = false ∧
      row.refused.map (fun refusal => (refusal.1.front, refusal.2.front)) = [(false, true)] :=
  ⟨⟨_, rfl, rfl, rfl, rfl⟩, _, rfl, rfl, rfl, rfl, rfl⟩

end Applier

/-! ## The snapshot pools -/

def SnapshotPools.run : List (DriverGroupKey × RowAction) → DriverGroupKey → Row SnapshotPhase :=
  runGroups SnapshotPhase.all true

def Nowhere (listing : Listing SnapshotPhase) : Prop := ∀ phase, listing.back phase = false

namespace SnapshotPools

/-- **The snapshot pools.** A key no call is under way for is in all pools or in none, and a
refused registration leaves it in none. -/
theorem all_or_none (calls : List (DriverGroupKey × RowAction))
    (apart : KeptApart SnapshotPhase.all true Nowhere calls) (key : DriverGroupKey) :
    ((run calls key).calls = [] → (∀ phase, (run calls key).back phase = true) ∨
        Nowhere (run calls key).toListing) ∧
    ∀ refusal ∈ (run calls key).refused, Nowhere refusal.2 := by
  have orderly := apart.orderly (by decide) key
  refine ⟨fun none => ?_, fun refusal member => (orderly.unchanged refusal member).2⟩
  have agree : ∀ phase, (run calls key).back phase = (run calls key).front :=
    fun phase => orderly.agree none phase (by cases phase <;> decide)
  cases front : (run calls key).front with
  | true => exact .inl fun phase => (agree phase).trans front
  | false => exact .inr fun phase => (agree phase).trans front

end SnapshotPools

/-- A registration from its first step to its return. -/
def registers : List (DriverGroupKey × RowAction) :=
  (group, .register) :: List.replicate 5 (group, .advance 0)

namespace SnapshotPools

theorem all_or_none_registered : (∀ phase, (run registers group).back phase = true) ∨
      Nowhere (run registers group).toListing :=
  (all_or_none registers
    ⟨⟨by simp [Row.Apart, Row.empty], by simp [Row.empty]⟩, ⟨trivial, nofun⟩, ⟨trivial, nofun⟩,
      ⟨trivial, nofun⟩, ⟨trivial, nofun⟩, ⟨trivial, nofun⟩, trivial⟩ group).1 rfl

/-- A cancellation between the first pool a registration enters and the second leaves the group in
three pools; a registration refused by a pool a cancellation has not reached leaves it there. -/
theorem group_split :
    (∃ row, row = run ([(group, .register), (group, .advance 0), (group, .cancel)] ++
        List.replicate 5 (group, .advance 1) ++ List.replicate 4 (group, .advance 0)) group ∧
      row.calls = [] ∧ row.back .create = false ∧ row.back .send = true) ∧
    ∃ row, row = run (registers ++ [(group, .cancel), (group, .advance 0),
        (group, .register)] ++ List.replicate 4 (group, .advance 1)) group ∧
      row.refused.map (fun refusal => refusal.2.back .send) = [true] :=
  ⟨⟨_, rfl, rfl, rfl, rfl⟩, _, rfl, rfl⟩

end SnapshotPools
end MatrixRaft
