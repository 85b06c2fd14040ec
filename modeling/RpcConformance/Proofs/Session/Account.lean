import RpcConformance.Proofs.Session.Course
/-!
The events that the deeds of a handler amount to: headers, messages and the end, or the end alone
(`Answers`). `account` is what they amount to so far, and grows with every deed.
-/
namespace RpcConformance

namespace Deed

/-- The events of a call whose handler did `deeds` and returned `outcome`: with headers, if they were
let out or the call ended well, or else the failed end alone, which carries the headers too. -/
def Answers (deeds : List Deed) (outcome : Outcome) (events : List (Event Bytes)) : Prop :=
  ((opened deeds = true ∨ outcome = .ok ()) ∧
    events = .headers (earlyHeaders deeds) :: (messages deeds).map .message ++
      [.ended outcome (allTrailers deeds)]) ∨
  ∃ status, outcome = .error status ∧ opened deeds = false ∧
    events = [.ended (.error status) ((earlyHeaders deeds).extend (allTrailers deeds))]

/-- The events of a call before its handler returns. -/
def letOut (deeds : List Deed) : List (Event Bytes) :=
  if opened deeds then .headers (earlyHeaders deeds) :: (messages deeds).map .message else []

/-- The events that come when the handler returns. -/
def ending (deeds : List Deed) (outcome : Outcome) : List (Event Bytes) :=
  if opened deeds then [.ended outcome (allTrailers deeds)]
  else
    match outcome with
    | .ok () => [.headers (earlyHeaders deeds), .ended (.ok ()) (allTrailers deeds)]
    | .error status => [.ended (.error status) ((earlyHeaders deeds).extend (allTrailers deeds))]

/-- The events of a call as far as its handler has come. -/
def account (deeds : List Deed) : List (Event Bytes) :=
  letOut deeds ++ (returned? deeds).elim [] (ending deeds)

theorem messages_of_not_opened {deeds : List Deed} (h : opened deeds = false) : messages deeds = [] := by
  induction deeds with
  | nil => rfl
  | cons deed deeds ih =>
    simp only [opened, List.any_cons, Bool.or_eq_false_iff] at h
    have htail := ih h.2
    cases deed <;> simp_all [opens, messages, message?]

theorem answers_account {deeds : List Deed} {outcome : Outcome} (h : returned? deeds = some outcome) :
    Answers deeds outcome (account deeds) := by
  rw [account, h, Option.elim_some, letOut]
  unfold ending
  by_cases hopened : opened deeds = true
  · rw [if_pos hopened, if_pos hopened]
    exact .inl ⟨.inl hopened, rfl⟩
  · rw [if_neg hopened, if_neg hopened]
    rw [Bool.not_eq_true] at hopened
    cases outcome with
    | ok => exact .inl ⟨.inr rfl, by simp [messages_of_not_opened hopened]⟩
    | error status => exact .inr ⟨status, rfl, hopened, rfl⟩

/-- Before the handler returned, its events are the headers and messages that were let out. -/
theorem account_of_pending {deeds : List Deed} (h : returned? deeds = none) :
    account deeds = letOut deeds := by
  rw [account, h, Option.elim_none, List.append_nil]

theorem not_ended_of_letOut (deeds : List Deed) (outcome : Outcome) (trailers : Metadata) :
    .ended outcome trailers ∉ letOut deeds := by
  rw [letOut]
  split <;> simp

@[simp] theorem opened_append (deeds more : List Deed) :
    opened (deeds ++ more) = (opened deeds || opened more) := List.any_append

theorem allTrailers_append (deeds more : List Deed) :
    allTrailers (deeds ++ more) = (allTrailers deeds).extend (allTrailers more) := by
  simp [allTrailers, Metadata.extend]

@[simp] theorem messages_append (deeds more : List Deed) :
    messages (deeds ++ more) = messages deeds ++ messages more := List.filterMap_append

@[simp] theorem returned?_append (deeds more : List Deed) :
    returned? (deeds ++ more) = (returned? deeds).or (returned? more) := List.findSome?_append

theorem earlyHeaders_append_of_opened {deeds : List Deed} (h : opened deeds = true) (more : List Deed) :
    earlyHeaders (deeds ++ more) = earlyHeaders deeds := by
  have htake : (deeds ++ more).takeWhile (fun deed => !deed.opens) =
      deeds.takeWhile fun deed => !deed.opens := by
    induction deeds with
    | nil => cases h
    | cons deed deeds ih =>
      rw [opened, List.any_cons] at h
      by_cases hopens : deed.opens = true
      · rw [List.cons_append, List.takeWhile_cons_of_neg (by simp [hopens]),
          List.takeWhile_cons_of_neg (by simp [hopens])]
      · rw [Bool.not_eq_true] at hopens
        rw [hopens, Bool.false_or] at h
        rw [List.cons_append, List.takeWhile_cons_of_pos (by simp [hopens]),
          List.takeWhile_cons_of_pos (by simp [hopens]), ih h]
  rw [earlyHeaders, htake, earlyHeaders]

theorem earlyHeaders_append {deeds : List Deed} (h : opened deeds = false) (more : List Deed) :
    earlyHeaders (deeds ++ more) = (earlyHeaders deeds).extend (earlyHeaders more) := by
  have hall : ∀ deed ∈ deeds, (!deed.opens) = true := by
    simpa [opened] using h
  have hself : (deeds ++ []).takeWhile (fun deed => !deed.opens) = deeds ++ [] :=
    List.takeWhile_append_of_pos hall
  rw [List.append_nil] at hself
  simp [earlyHeaders, Metadata.extend, List.takeWhile_append_of_pos hall, hself]

theorem letOut_append_of_opened {deeds : List Deed} (h : opened deeds = true) (more : List Deed) :
    letOut (deeds ++ more) = letOut deeds ++ (messages more).map .message := by
  have hopened : opened (deeds ++ more) = true := by
    rw [opened_append, h, Bool.true_or]
  rw [letOut, if_pos hopened, letOut, if_pos h, earlyHeaders_append_of_opened h, messages_append,
    List.map_append, List.cons_append]

theorem letOut_append_of_silent (deeds : List Deed) {deed : Deed} (hopens : deed.opens = false) :
    letOut (deeds ++ [deed]) = letOut deeds := by
  have hopened : opened [deed] = false := by
    rw [opened, List.any_cons, hopens]
    rfl
  by_cases hwas : opened deeds = true
  · rw [letOut_append_of_opened hwas, messages_of_not_opened hopened, List.map_nil, List.append_nil]
  · rw [letOut, opened_append, hopened, Bool.or_false, if_neg hwas, letOut, if_neg hwas]

theorem letOut_append_flush {deeds : List Deed} (h : opened deeds = false) :
    letOut (deeds ++ [.flush]) = letOut deeds ++ [.headers (earlyHeaders deeds)] := by
  have hopened : opened (deeds ++ [.flush]) = true := by
    rw [opened_append, h]
    rfl
  have hheaders : earlyHeaders (deeds ++ [.flush]) = earlyHeaders deeds := by
    rw [earlyHeaders_append h]
    simp [earlyHeaders, Metadata.extend, opens]
  rw [letOut, if_pos hopened, letOut, h, if_neg Bool.false_ne_true, hheaders, messages_append,
    messages_of_not_opened h]
  rfl

theorem account_append_returned {deeds : List Deed} (h : returned? deeds = none) (outcome : Outcome) :
    account (deeds ++ [.returned outcome]) = account deeds ++ ending deeds outcome := by
  have hreturned : returned? (deeds ++ [.returned outcome]) = some outcome := by
    rw [returned?_append, h]
    rfl
  have hopened : opened (deeds ++ [.returned outcome]) = opened deeds := by
    rw [opened_append]
    exact Bool.or_false _
  have htrailers : allTrailers (deeds ++ [.returned outcome]) = allTrailers deeds := by
    simp [allTrailers, trailerEntries]
  have hheaders : opened deeds = false → earlyHeaders (deeds ++ [.returned outcome]) = earlyHeaders deeds := by
    intro hwas
    rw [earlyHeaders_append hwas]
    simp [earlyHeaders, Metadata.extend, opens, headerEntries]
  have hending : ending (deeds ++ [.returned outcome]) outcome = ending deeds outcome := by
    unfold ending
    rw [hopened, htrailers]
    by_cases hwas : opened deeds = true
    · rw [if_pos hwas, if_pos hwas]
    · rw [if_neg hwas, if_neg hwas, hheaders (Bool.eq_false_iff.2 hwas)]
  rw [account_of_pending h, account, hreturned, Option.elim_some, letOut_append_of_silent deeds rfl, hending]

end Deed

end RpcConformance
