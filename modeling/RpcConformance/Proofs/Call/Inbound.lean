import RpcConformance.Call.Inbound
/-!
What the reader of a queue of requests is given (`Queue`): the requests that were accepted, in order and
each once, and then either the cancellation or, after the last of them, the end (`Ending`). Each thing the
sender does and each read keeps this (`Queue.push`, `Queue.close`, `Queue.cancel`, `Queue.poll`).
-/
namespace RpcConformance

inductive Reading
  | item (item : Except Status Bytes)
  | ended
deriving Repr

def Reading.cancellation : Reading := .item (.error Inbound.cancellation)

namespace Inbound

variable {α : Type}

/-- What may follow the requests that were read, while some are unread: nothing yet; the cancellation, and
then the end; or the end at once, where no request is unread. -/
inductive Ending : (unread : List α) → List Reading → Prop
  | none (unread : List α) : Ending unread []
  | canceled (unread : List α) (more : Nat) :
      Ending unread (Reading.cancellation :: List.replicate more .ended)
  | clean (more : Nat) : Ending [] (List.replicate (more + 1) .ended)

theorem Ending.ended {unread : List α} {ending : List Reading} (h : Ending unread ending) (hne : ending ≠ []) :
    Ending unread (ending ++ [.ended]) := by
  cases h with
  | none => exact absurd rfl hne
  | canceled more =>
    rw [List.cons_append, ← List.replicate_succ']
    exact .canceled _ _
  | clean more =>
    rw [← List.replicate_succ']
    exact .clean _

/-- A queue into which requests were `accepted` and from which there were some `reads`. It is closed just
when the sender closed it, and canceled just when the sender gave the call up. -/
inductive Queue (encode : α → Except Status Bytes) (accepted : List α) (reads : List Reading)
    (closed givenUp : Prop) : Inbound → Prop
  | waiting {inbound : Inbound} (taken unread : List α) (haccepted : accepted = taken ++ unread)
      (hreads : reads = taken.map fun message => .item (encode message))
      (harrivals : inbound.arrivals = unread.map fun message => .item (encode message))
      (hthere : inbound.dropped = false) (hclosed : inbound.closed = true ↔ closed)
      (hcanceled : inbound.canceled = true ↔ givenUp) : Queue encode accepted reads closed givenUp inbound
  | done (taken unread : List α) (ending : List Reading) (haccepted : accepted = taken ++ unread)
      (hreads : reads = (taken.map fun message => .item (encode message)) ++ ending)
      (hending : Ending unread ending) (hne : ending ≠ []) : Queue encode accepted reads closed givenUp .gone

/-- What the next read gives, when some requests are unread and there was an ending or none yet. -/
inductive Next (encode : α → Except Status Bytes) (closed givenUp : Prop) :
    (unread : List α) → (ending : List Reading) → Option Reading → Prop
  | canceled (unread : List α) (hgivenUp : givenUp) :
      Next encode closed givenUp unread [] (some Reading.cancellation)
  | request (message : α) (unread : List α) (hgivenUp : ¬givenUp) :
      Next encode closed givenUp (message :: unread) [] (some (.item (encode message)))
  | clean (hgivenUp : ¬givenUp) (hclosed : closed) : Next encode closed givenUp [] [] (some .ended)
  | waiting (hgivenUp : ¬givenUp) (hclosed : ¬closed) : Next encode closed givenUp [] [] none
  | ended (unread : List α) {ending : List Reading} (hne : ending ≠ []) :
      Next encode closed givenUp unread ending (some .ended)

def next? (inbound : Inbound) (now : Nat) : Option Reading :=
  match inbound.poll now with
  | .item item _ => some (.item item)
  | .ended _ => some .ended
  | .begun _ | .waiting => none

namespace Queue

variable {encode : α → Except Status Bytes} {accepted : List α} {reads : List Reading}
  {closed givenUp : Prop} {inbound : Inbound}

theorem openEnd : Queue encode [] [] False False .openEnd :=
  .waiting [] [] rfl rfl rfl rfl (by simp [Inbound.openEnd]) (by simp [Inbound.openEnd])

theorem congr (h : Queue encode accepted reads closed givenUp inbound) {closed' givenUp' : Prop}
    (hclosed' : closed ↔ closed') (hgivenUp : givenUp ↔ givenUp') :
    Queue encode accepted reads closed' givenUp' inbound := by
  cases h with
  | waiting taken unread haccepted hreads harrivals hthere hclosed hcanceled =>
    exact .waiting taken unread haccepted hreads harrivals hthere (hclosed.trans hclosed') (hcanceled.trans hgivenUp)
  | done taken unread ending haccepted hreads hending hne =>
    exact .done taken unread ending haccepted hreads hending hne

theorem close (h : Queue encode accepted reads closed givenUp inbound) :
    Queue encode accepted reads True givenUp inbound.close := by
  cases h with
  | waiting taken unread haccepted hreads harrivals hthere _ hcanceled =>
    exact .waiting taken unread haccepted hreads harrivals hthere (by simp [Inbound.close]) hcanceled
  | done taken unread ending haccepted hreads hending hne =>
    exact .done taken unread ending haccepted hreads hending hne

theorem cancel (h : Queue encode accepted reads closed givenUp inbound) :
    Queue encode accepted reads True True inbound.cancel := by
  cases h with
  | waiting taken unread haccepted hreads harrivals hthere =>
    exact .waiting taken unread haccepted hreads harrivals hthere (by simp [Inbound.cancel])
      (by simp [Inbound.cancel, hthere])
  | done taken unread ending haccepted hreads hending hne =>
    exact .done taken unread ending haccepted hreads hending hne

theorem push (h : Queue encode accepted reads closed givenUp inbound) {message : α} {inbound' : Inbound}
    (hpush : inbound.push (encode message) = .accepted inbound') :
    Queue encode (accepted ++ [message]) reads closed givenUp inbound' := by
  cases h with
  | waiting taken unread haccepted hreads harrivals hthere hclosed hcanceled =>
    rw [Inbound.push, hthere] at hpush
    split at hpush
    · cases hpush
    · split at hpush
      · cases hpush
        refine .waiting taken (unread ++ [message]) ?_ hreads ?_ rfl hclosed hcanceled
        · rw [haccepted, List.append_assoc]
        · rw [List.map_append, ← harrivals]
          rfl
      · cases hpush
  | done => cases hpush

theorem poll_canceled (h : inbound.canceled = true) (now : Nat) :
    inbound.poll now = .item (.error cancellation) .gone := by
  rw [Inbound.poll, if_pos h]

theorem poll_item (h : inbound.canceled = false) {item : Except Status Bytes} {rest : List Arrival}
    (harrivals : inbound.arrivals = .item item :: rest) (now : Nat) :
    inbound.poll now = .item item { inbound with arrivals := rest } := by
  simp only [Inbound.poll, h, harrivals, Bool.false_eq_true, if_false]

theorem poll_closed (h : inbound.canceled = false) (harrivals : inbound.arrivals = [])
    (hclosed : inbound.closed = true) (now : Nat) : inbound.poll now = .ended .gone := by
  simp only [Inbound.poll, h, harrivals, hclosed, Bool.false_eq_true, if_false, if_true]

theorem poll_open (h : inbound.canceled = false) (harrivals : inbound.arrivals = [])
    (hclosed : inbound.closed = false) (now : Nat) : inbound.poll now = .waiting := by
  simp only [Inbound.poll, h, harrivals, hclosed, Bool.false_eq_true, if_false]

theorem poll (h : Queue encode accepted reads closed givenUp inbound) (now : Nat) :
    match inbound.poll now with
    | .item item rest => Queue encode accepted (reads ++ [.item item]) closed givenUp rest
    | .ended rest => Queue encode accepted (reads ++ [.ended]) closed givenUp rest
    | .begun _ => False
    | .waiting => True := by
  cases h with
  | done taken unread ending haccepted hreads hending hne =>
    refine .done taken unread (ending ++ [.ended]) haccepted ?_ (hending.ended hne) (by simp)
    rw [hreads, List.append_assoc]
  | waiting taken unread haccepted hreads harrivals hthere hclosed hcanceled =>
    cases hflag : inbound.canceled with
    | true =>
      rw [poll_canceled hflag]
      exact .done taken unread [Reading.cancellation] haccepted (by rw [hreads]; rfl) (.canceled unread 0) (by simp)
    | false =>
      cases unread with
      | nil =>
        cases hdone : inbound.closed with
        | true =>
          rw [poll_closed hflag harrivals hdone]
          exact .done taken [] [.ended] haccepted (by rw [hreads]) (.clean 0) (by simp)
        | false =>
          rw [poll_open hflag harrivals hdone]
          trivial
      | cons message unread =>
        rw [poll_item hflag harrivals]
        refine .waiting (taken ++ [message]) unread ?_ ?_ rfl hthere hclosed hcanceled
        · rw [haccepted, List.append_assoc]
          rfl
        · rw [hreads, List.map_append]
          rfl

theorem next (h : Queue encode accepted reads closed givenUp inbound) (now : Nat) :
    ∃ taken unread ending, accepted = taken ++ unread ∧
      reads = (taken.map fun message => .item (encode message)) ++ ending ∧ Ending unread ending ∧
      Next encode closed givenUp unread ending (inbound.next? now) := by
  cases h with
  | done taken unread ending haccepted hreads hending hne =>
    exact ⟨taken, unread, ending, haccepted, hreads, hending, .ended unread hne⟩
  | waiting taken unread haccepted hreads harrivals hthere hclosed hcanceled =>
    refine ⟨taken, unread, [], haccepted, by rw [hreads, List.append_nil], .none unread, ?_⟩
    cases hflag : inbound.canceled with
    | true =>
      rw [next?, poll_canceled hflag]
      exact .canceled unread (hcanceled.1 hflag)
    | false =>
      have hkept : ¬givenUp := fun hgivenUp => by simp [hcanceled.2 hgivenUp] at hflag
      cases unread with
      | nil =>
        cases hdone : inbound.closed with
        | true =>
          rw [next?, poll_closed hflag harrivals hdone]
          exact .clean hkept (hclosed.1 hdone)
        | false =>
          rw [next?, poll_open hflag harrivals hdone]
          exact .waiting hkept fun hclose => by simp [hclosed.2 hclose] at hdone
      | cons message unread =>
        rw [next?, poll_item hflag harrivals]
        exact .request message unread hkept

end Queue

end Inbound
end RpcConformance
