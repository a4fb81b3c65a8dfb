import Mathlib.Data.Set.Insert

/-!
# Role-based access control

Users are assigned to roles, roles are granted permissions, and a permission stands
for a right.  A `Policy` is these relations as sets, over any types of users, roles,
permissions, names and rights.  An `Op` is one step of administration, and `enrol` is
the arrival of a user, who gets the role of a given name.

* `Op.Confers` says which operations can give a right to a user, and `May.of_step`
  that no other does.
* `run` is the policy after a log of operations.
-/

namespace Rbac

variable {U R P N A : Type}

/-- Roles with their names, permissions with the rights they stand for, and the two
relations between users, roles and permissions. -/
@[ext] structure Policy (U R P N A : Type) where
  roles : Set (R × N)
  permissions : Set (P × A)
  assigned : Set (U × R)
  granted : Set (R × P)

/-- A step of administration. -/
inductive Op (U R P N A : Type) where
  | addRole (role : R) (name : N)
  | deleteRole (role : R)
  | addPermission (permission : P) (right : A)
  | grant (role : R) (permission : P)
  | withdraw (role : R) (permission : P)
  | assign (user : U) (role : R)
  | deassign (user : U) (role : R)
  | enrol (user : U) (name : N)

namespace Policy

/-- The role carries the right. -/
def Carries (s : Policy U R P N A) (role : R) (right : A) : Prop :=
  ∃ p, (role, p) ∈ s.granted ∧ (p, right) ∈ s.permissions

/-- A role of the user carries the right. -/
def May (s : Policy U R P N A) (user : U) (right : A) : Prop :=
  ∃ r, (user, r) ∈ s.assigned ∧ s.Carries r right

/-- The policy after one operation.  A role takes its links with it. -/
def step (s : Policy U R P N A) : Op U R P N A → Policy U R P N A
  | .addRole r n => { s with roles := insert (r, n) s.roles }
  | .deleteRole r =>
      { s with
        roles := {x ∈ s.roles | x.1 ≠ r}
        assigned := {x ∈ s.assigned | x.2 ≠ r}
        granted := {x ∈ s.granted | x.1 ≠ r} }
  | .addPermission p a => { s with permissions := insert (p, a) s.permissions }
  | .grant r p => { s with granted := insert (r, p) s.granted }
  | .withdraw r p => { s with granted := s.granted \ {(r, p)} }
  | .assign u r => { s with assigned := insert (u, r) s.assigned }
  | .deassign u r => { s with assigned := s.assigned \ {(u, r)} }
  | .enrol u n => { s with assigned := s.assigned ∪ {x | x.1 = u ∧ (x.2, n) ∈ s.roles} }

/-- The policy after a log of operations. -/
def run (s : Policy U R P N A) (ops : List (Op U R P N A)) : Policy U R P N A :=
  ops.foldl step s

@[simp] theorem run_nil (s : Policy U R P N A) : s.run [] = s := rfl

@[simp] theorem run_cons (s : Policy U R P N A) (op : Op U R P N A)
    (ops : List (Op U R P N A)) : s.run (op :: ops) = (s.step op).run ops := rfl

theorem run_append (s : Policy U R P N A) (a b : List (Op U R P N A)) :
    s.run (a ++ b) = (s.run a).run b := by
  simp [run, List.foldl_append]

end Policy

/-! ## One step -/

/-- The operation gives the user the right: a role that carries it, a permission for a
role of the user, or the right itself for a permission of such a role. -/
def Op.Confers (s : Policy U R P N A) (user : U) (right : A) : Op U R P N A → Prop
  | .assign u r => u = user ∧ s.Carries r right
  | .enrol u n => u = user ∧ ∃ r, (r, n) ∈ s.roles ∧ s.Carries r right
  | .grant r p => (user, r) ∈ s.assigned ∧ (p, right) ∈ s.permissions
  | .addPermission p a => a = right ∧ ∃ r, (user, r) ∈ s.assigned ∧ (r, p) ∈ s.granted
  | _ => False

variable {s : Policy U R P N A} {user : U} {right : A} {op : Op U R P N A}

namespace Policy

/-- A right that a step brings was conferred by it. -/
theorem May.of_step (h : (s.step op).May user right) :
    s.May user right ∨ op.Confers s user right := by
  obtain ⟨r, hassigned, p, hgranted, hright⟩ := h
  cases op with
  | addRole role name => exact .inl ⟨r, hassigned, p, hgranted, hright⟩
  | deleteRole role => exact .inl ⟨r, hassigned.1, p, hgranted.1, hright⟩
  | withdraw role permission => exact .inl ⟨r, hassigned, p, hgranted.1, hright⟩
  | deassign u role => exact .inl ⟨r, hassigned.1, p, hgranted, hright⟩
  | addPermission permission a =>
    rcases hright with hnew | hold
    · cases hnew
      exact .inr ⟨rfl, r, hassigned, hgranted⟩
    · exact .inl ⟨r, hassigned, p, hgranted, hold⟩
  | grant role permission =>
    rcases hgranted with hnew | hold
    · cases hnew
      exact .inr ⟨hassigned, hright⟩
    · exact .inl ⟨r, hassigned, p, hold, hright⟩
  | assign u role =>
    rcases hassigned with hnew | hold
    · cases hnew
      exact .inr ⟨rfl, p, hgranted, hright⟩
    · exact .inl ⟨r, hold, p, hgranted, hright⟩
  | enrol u name =>
    rcases hassigned with hold | ⟨hu, hrole⟩
    · exact .inl ⟨r, hold, p, hgranted, hright⟩
    · exact .inr ⟨hu.symm, r, hrole, p, hgranted, hright⟩

end Policy

end Rbac
