import AttributeFlow.Event

/-!
# Replies

An operation on a dataset or an effect leaves behind a new state, the events it
reported and an answer.  State and events are there whatever the answer is, so
that an operation may be refused partway.
-/

namespace AttributeFlow

/-- What an operation leaves behind: the state after it, the events it reported
in order, and its answer. -/
structure Reply (State Answer : Type) where
  state : State
  events : List Event := []
  answer : Answer

namespace Reply

variable {State State' Answer Answer' : Type}

def mapState (reply : Reply State Answer) (onState : State → State') :
    Reply State' Answer :=
  ⟨onState reply.state, reply.events, reply.answer⟩

def mapAnswer (reply : Reply State Answer) (onAnswer : Answer → Answer') :
    Reply State Answer' :=
  ⟨reply.state, reply.events, onAnswer reply.answer⟩

end Reply

end AttributeFlow
