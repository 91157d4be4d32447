/-!
# Journal

What an operation has to tell besides its answer, in order.
-/

namespace TransitSim

inductive Level where
  | info
  | warn
  | error
  deriving DecidableEq, Repr

structure Entry where
  level : Level
  text : String
  deriving DecidableEq, Repr

abbrev Journal := List Entry

def Journal.info (text : String) : Journal := [⟨.info, text⟩]

def Journal.warn (text : String) : Journal := [⟨.warn, text⟩]

def Journal.error (text : String) : Journal := [⟨.error, text⟩]

end TransitSim
