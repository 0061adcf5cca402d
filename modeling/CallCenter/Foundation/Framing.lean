import Mathlib.Data.List.Infix

/-!
# Messages on a stream

A decoder takes a message off the front of a stream, or finds none that is complete.  It is `Stable`
where what follows a complete message never changes how it is read; the messages of a stream then depend
on the stream alone, however it is cut.
-/

namespace CallCenter.Foundation.Framing

universe u v

variable {Entry : Type u} {Message : Type v}

abbrev Decoder (Entry : Type u) (Message : Type v) := List Entry → Option (Message × List Entry)

/-- A complete message is read alike, whatever follows it. -/
def Stable (next : Decoder Entry Message) : Prop :=
  ∀ {stream message rest}, next stream = some (message, rest) →
    ∀ more, next (stream ++ more) = some (message, rest ++ more)

/-- The messages at the front of a stream, one after the other, and what is behind them. -/
inductive Decodes (next : Decoder Entry Message) : List Entry → List Message → List Entry → Prop where
  | done (stream : List Entry) : Decodes next stream [] stream
  | next {stream middle rest : List Entry} {message : Message} {messages : List Message}
      (first : next stream = some (message, middle)) (others : Decodes next middle messages rest) :
      Decodes next stream (message :: messages) rest

namespace Decodes

variable {next : Decoder Entry Message}

theorem single {stream rest : List Entry} {message : Message} (first : next stream = some (message, rest)) :
    Decodes next stream [message] rest :=
  .next first (.done rest)

theorem trans {stream middle rest : List Entry} {earlier later : List Message}
    (front : Decodes next stream earlier middle) (back : Decodes next middle later rest) :
    Decodes next stream (earlier ++ later) rest := by
  induction front with
  | done => exact back
  | next first _ inductionHypothesis => exact .next first (inductionHypothesis back)

/-- Two readings of one stream agree as far as both go. -/
theorem comparable {stream rest rest' : List Entry} {messages messages' : List Message}
    (one : Decodes next stream messages rest) (other : Decodes next stream messages' rest') :
    messages <+: messages' ∨ messages' <+: messages := by
  induction one generalizing messages' with
  | done => exact .inl List.nil_prefix
  | @next stream middle rest message messages first others inductionHypothesis =>
    cases other with
    | done => exact .inr List.nil_prefix
    | next first' others' =>
      rw [first] at first'
      cases first'
      refine (inductionHypothesis others').imp ?_ ?_
      all_goals
        intro shorter
        exact (List.prefix_cons_inj message).mpr shorter

/-- Where nothing more can be read, everything was. -/
theorem longest {stream rest rest' : List Entry} {messages messages' : List Message}
    (one : Decodes next stream messages rest) (other : Decodes next stream messages' rest')
    (ended : next rest = none) : messages' <+: messages := by
  induction one generalizing messages' with
  | done stream =>
    cases other with
    | done => exact List.nil_prefix
    | next first' => rw [ended] at first'; cases first'
  | @next stream middle rest message messages first others inductionHypothesis =>
    cases other with
    | done => exact List.nil_prefix
    | next first' others' =>
      rw [first] at first'
      cases first'
      exact (List.prefix_cons_inj message).mpr (inductionHypothesis others' ended)

/-- The encodings of messages, one behind the other, are read back as the messages. -/
theorem of_encoded {Source : Type*} (encode : Source → List Entry) (meaning : Source → Message)
    {sources : List Source}
    (read : ∀ source ∈ sources, ∀ rest, next (encode source ++ rest) = some (meaning source, rest))
    (rest : List Entry) : Decodes next (sources.flatMap encode ++ rest) (sources.map meaning) rest := by
  induction sources with
  | nil => exact .done rest
  | cons source sources inductionHypothesis =>
    rw [List.forall_mem_cons] at read
    rw [List.flatMap_cons, List.append_assoc]
    exact .next (read.1 _) (inductionHypothesis read.2)

end Decodes

end CallCenter.Foundation.Framing
