/-!
# Registries

A registry holds one value for a key, in the order in which the keys were first put in.
-/

namespace TransitSim

/-- Keys with their values; a key that stands twice counts where it stands first. -/
abbrev Registry (V : Type) := List (String × V)

namespace Registry

variable {V : Type}

def find? (r : Registry V) (key : String) : Option V :=
  r.lookup key

def put (r : Registry V) (key : String) (value : V) : Registry V :=
  match r with
  | [] => [(key, value)]
  | (k, v) :: rest => if key = k then (k, value) :: rest else (k, v) :: put rest key value

def putNew (r : Registry V) (key : String) (value : V) : Registry V :=
  match find? r key with
  | some _ => r
  | none => put r key value

theorem find?_cons (k : String) (v : V) (r : Registry V) (key : String) :
    find? ((k, v) :: r) key = if key = k then some v else find? r key := by
  by_cases h : key = k
  · simp [find?, h]
  · simp [find?, List.lookup_cons, beq_false_of_ne h, h]

theorem find?_put (r : Registry V) (key : String) (value : V) (k : String) :
    find? (put r key value) k = if k = key then some value else find? r k := by
  induction r with
  | nil => simp [put, find?_cons]
  | cons e rest ih =>
      obtain ⟨k', v'⟩ := e
      by_cases h : key = k'
      · subst h
        by_cases h' : k = key <;> simp [put, find?_cons, h']
      · by_cases h' : k = k'
        · subst h'
          simp [put, find?_cons, h, Ne.symm h]
        · simp [put, find?_cons, h, h', ih]

def keys (r : Registry V) : List String :=
  r.map (·.1)

end Registry
end TransitSim
