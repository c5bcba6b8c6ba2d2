import Sproyt.Db.JsonText

/-!
# The context of an agent's reply

The end of `context` in `chatbot.rs`: the eligible messages lose their internal tokens, and the
oldest are dropped until their JSON leaves room for the follow-up anchor.  The attribution of a
message is not serialised, and its id comes from the same column as the message's, so that sealing
it cannot fail; it is left out here.
-/

namespace Sproyt

open List

structure ContextMessage where
  id : String
  author : String
  body : String
  deriving DecidableEq

structure FollowupContext where
  mode : String
  anchor : ContextMessage

/-- `MAX_CONTEXT_BYTES`. -/
def maxContextBytes : Nat := 12000

/-! ### Token stripping -/

/-- A text around the first place where a character stands twice, as `find` and slicing split
it. -/
def cutAtDouble (c : Char) : List Char → Option (List Char × List Char)
  | a :: b :: rest =>
    if a = c ∧ b = c then some ([], rest)
    else (cutAtDouble c (b :: rest)).map fun (before, after) => (a :: before, after)
  | _ => none

variable {c : Char} {text before after : List Char}

theorem cutAtDouble_eq (h : cutAtDouble c text = some (before, after)) :
    text = before ++ c :: c :: after := by
  induction text generalizing before with
  | nil => simp [cutAtDouble] at h
  | cons a text ih =>
    cases text with
    | nil => simp [cutAtDouble] at h
    | cons b rest =>
      rw [cutAtDouble] at h
      split at h
      · next hdouble =>
        cases h
        rw [hdouble.1, hdouble.2]
        rfl
      · obtain ⟨⟨before', after'⟩, hcut, heq⟩ := Option.map_eq_some_iff.1 h
        cases heq
        rw [ih hcut]
        rfl

theorem cutAtDouble_length (h : cutAtDouble c text = some (before, after)) :
    after.length < text.length := by
  rw [cutAtDouble_eq h, length_append, length_cons, length_cons]
  omega

/-- The loop of `strip_internal_tokens`: what it appends to `out`.  An opening without a closing
is kept with all that follows. -/
def withoutTokens (rest : List Char) : List Char :=
  match hopen : cutAtDouble '[' rest with
  | none => rest
  | some (before, token) =>
    match hclose : cutAtDouble ']' token with
    | none => rest
    | some (_, after) =>
      have : after.length < rest.length :=
        (cutAtDouble_length hclose).trans (cutAtDouble_length hopen)
      before ++ withoutTokens after
termination_by rest.length

def stripInternalTokens (body : String) : String :=
  trim (String.ofList (withoutTokens body.toList))

def ContextMessage.stripped (m : ContextMessage) : ContextMessage :=
  { m with body := stripInternalTokens m.body }

theorem cutAtDouble_first (x y : List Char) (h : text = x ++ c :: c :: y) :
    ∃ before after, cutAtDouble c text = some (before, after) ∧ before <+: x := by
  induction x generalizing text with
  | nil =>
    refine ⟨[], y, ?_, nil_prefix⟩
    rw [h, nil_append, cutAtDouble, if_pos ⟨rfl, rfl⟩]
  | cons a x ih =>
    obtain ⟨before, after, hcut, hbefore⟩ := ih rfl
    cases hrest : x ++ c :: c :: y with
    | nil => simp at hrest
    | cons b rest =>
      rw [h, cons_append, hrest, cutAtDouble]
      split
      · exact ⟨[], rest, rfl, nil_prefix⟩
      · rw [hrest] at hcut
        exact ⟨a :: before, after, by rw [hcut]; rfl, cons_prefix_cons.2 ⟨rfl, hbefore⟩⟩

theorem cutAtDouble_before (h : cutAtDouble c text = some (before, after)) :
    ¬ [c, c] <:+: before := by
  rintro ⟨x, y, rfl⟩
  obtain ⟨_, _, hcut, hprefix⟩ := cutAtDouble_first (c := c) x (y ++ c :: c :: after)
    ((cutAtDouble_eq h).trans (by simp))
  cases h.symm.trans hcut
  have := hprefix.length_le
  simp at this

def HasToken (text : List Char) : Prop :=
  ∃ x t y, text = x ++ '[' :: '[' :: (t ++ ']' :: ']' :: y)

/-- Complete tokens, each up to its first closing, are deleted from the left to the right. -/
inductive TokensDeleted : List Char → List Char → Prop
  | keep {text : List Char} : TokensDeleted text text
  | delete {text kept : List Char} (before token : List Char) (htoken : ¬ [']', ']'] <:+: token)
      (h : TokensDeleted text kept) :
      TokensDeleted (before ++ '[' :: '[' :: (token ++ ']' :: ']' :: text)) (before ++ kept)

theorem withoutTokens_deleted : TokensDeleted text (withoutTokens text) := by
  fun_induction withoutTokens text with
  | case1 => exact .keep
  | case2 => exact .keep
  | case3 text before rest hopen token after hclose _ ih =>
    rw [cutAtDouble_eq hopen, cutAtDouble_eq hclose]
    exact ih.delete before token (cutAtDouble_before hclose)

theorem withoutTokens_of_not (h : ¬ HasToken text) : withoutTokens text = text := by
  fun_cases withoutTokens text with
  | case1 => rfl
  | case2 => rfl
  | case3 before rest hopen token after hclose =>
    refine absurd ⟨before, token, after, ?_⟩ h
    rw [← cutAtDouble_eq hclose, ← cutAtDouble_eq hopen]

/-- No opening arises where a token is deleted: what stands before it does not end with a part of
one, or the token would begin there. -/
theorem not_hasToken_withoutTokens : ¬ HasToken (withoutTokens text) := by
  fun_induction withoutTokens text with
  | case1 text hopen =>
    rintro ⟨x, t, y, h⟩
    obtain ⟨before, after, hcut, -⟩ := cutAtDouble_first x _ h
    cases hopen.symm.trans hcut
  | case2 text before rest hopen hclose =>
    rintro ⟨x, t, y, h⟩
    obtain ⟨_, _, hcut, z, rfl⟩ := cutAtDouble_first x _ h
    cases hopen.symm.trans hcut
    rw [cutAtDouble_eq hopen, append_assoc] at h
    -- the closing that completes the token stands in the rest
    have hsuffix : ']' :: ']' :: y <:+ '[' :: '[' :: rest :=
      ⟨z ++ '[' :: '[' :: t, by simp [append_cancel_left h]⟩
    obtain ⟨u, hu⟩ : ']' :: ']' :: y <:+ rest := by simpa [suffix_cons_iff] using hsuffix
    obtain ⟨_, _, hcut, -⟩ := cutAtDouble_first u y hu.symm
    cases hclose.symm.trans hcut
  | case3 text before rest hopen token after hclose _ ih =>
    rintro ⟨x, t, y, h⟩
    rcases append_eq_append_iff.1 h with ⟨z, rfl, hz⟩ | ⟨z, rfl, hz⟩
    · exact ih ⟨z, t, y, hz⟩
    · cases z with
      | nil => exact ih ⟨[], t, y, hz.symm⟩
      | cons p z =>
        obtain ⟨u, hu⟩ : ∃ u, text = x ++ '[' :: '[' :: u := by
          rw [cutAtDouble_eq hopen, append_assoc, ← (cons.inj hz).1]
          cases z with
          | nil => exact ⟨'[' :: rest, rfl⟩
          | cons q z => exact ⟨z ++ '[' :: '[' :: rest, by rw [← (cons.inj (cons.inj hz).2).1]; rfl⟩
        obtain ⟨_, _, hcut, hprefix⟩ := cutAtDouble_first x u hu
        cases hopen.symm.trans hcut
        have := hprefix.length_le
        simp at this

theorem infix_toList_trim {s : String} : (trim s).toList <:+: s.toList := by
  rw [trim, String.toList_ofList]
  exact ( rdropWhile_prefix _ _).isInfix.trans (dropWhile_suffix _).isInfix

theorem HasToken.of_infix {inner : List Char} (h : HasToken inner) (hin : inner <:+: text) :
    HasToken text := by
  obtain ⟨x, t, y, rfl⟩ := h
  obtain ⟨a, b, rfl⟩ := hin
  exact ⟨a ++ x, t, y ++ b, by simp⟩

/-- The text without its tokens has no complete token left, is what stays when only tokens are
deleted and the blanks around it trimmed, and is not changed by another pass. -/
theorem stripInternalTokens_deletes_tokens (body : String) :
    ¬ HasToken (stripInternalTokens body).toList ∧
    (∃ kept, TokensDeleted body.toList kept ∧
      stripInternalTokens body = trim (String.ofList kept)) ∧
    stripInternalTokens (stripInternalTokens body) = stripInternalTokens body := by
  have hnot : ¬ HasToken (stripInternalTokens body).toList := fun h =>
    not_hasToken_withoutTokens (by simpa using h.of_infix (infix_toList_trim))
  refine ⟨hnot, ⟨_, withoutTokens_deleted, rfl⟩, ?_⟩
  rw [stripInternalTokens, withoutTokens_of_not hnot, String.ofList_toList]
  exact trim_of_bare (bare_trim _)

/-! ### Serialisation -/

def objectText (fields : List (String × List Char)) : List Char :=
  '\x7b' :: [','].intercalate
    (fields.map fun (name, value) => '"' :: stringText name ++ ':' :: value)
    ++ ['\x7d']

def ContextMessage.json (m : ContextMessage) : List Char :=
  objectText [("id", '"' :: stringText m.id), ("author", '"' :: stringText m.author),
    ("body", '"' :: stringText m.body)]

def FollowupContext.json (f : FollowupContext) : List Char :=
  objectText [("mode", '"' :: stringText f.mode), ("anchor", f.anchor.json)]

def messagesJson (messages : List ContextMessage) : List Char :=
  '[' :: [','].intercalate (messages.map ContextMessage.json) ++ [']']

def textBytes (text : List Char) : Nat := (text.map Char.utf8Size).sum

/-! ### Trimming -/

/-- The loop that removes the oldest message while the rest does not fit. -/
def trimContext (budget : Nat) : List ContextMessage → List ContextMessage
  | m :: next :: rest =>
    if budget < textBytes (messagesJson (m :: next :: rest)) then trimContext budget (next :: rest)
    else m :: next :: rest
  | messages => messages

/-- `MAX_CONTEXT_BYTES.saturating_sub(anchor_bytes)`. -/
def contextBudget (followup : Option FollowupContext) : Nat :=
  maxContextBytes - (followup.map fun f => textBytes f.json).getD 0

/-- The end of `context`, from the eligible messages in ascending order. -/
def context (source : String) (followup : Option FollowupContext)
    (messages : List ContextMessage) : Except RepositoryError (List ContextMessage) :=
  if messages.getLast?.all (·.id ≠ source) then .error .conflict
  else
    let kept := trimContext (contextBudget followup) (messages.map ContextMessage.stripped)
    if contextBudget followup < textBytes (messagesJson kept) then .error .conflict else .ok kept

theorem textBytes_messagesJson_cons_le {m : ContextMessage} {messages : List ContextMessage} :
    textBytes (messagesJson messages) ≤ textBytes (messagesJson (m :: messages)) := by
  cases messages with
  | nil => simp [messagesJson, textBytes]
  | cons next rest =>
    simp only [messagesJson, map_cons, intercalate_cons_cons, cons_append, textBytes,
      sum_cons, map_append, sum_append]
    omega

theorem textBytes_messagesJson_mono {shorter longer : List ContextMessage}
    (h : shorter <:+ longer) :
    textBytes (messagesJson shorter) ≤ textBytes (messagesJson longer) := by
  obtain ⟨dropped, rfl⟩ := h
  induction dropped with
  | nil => exact le_rfl
  | cons m dropped ih => exact ih.trans (textBytes_messagesJson_cons_le)

variable {budget : Nat} {messages : List ContextMessage}

theorem trimContext_suffix : trimContext budget messages <:+ messages := by
  fun_induction trimContext budget messages with
  | case1 m next rest _ ih => exact ih.trans (suffix_cons m _)
  | case2 => exact suffix_rfl
  | case3 => exact suffix_rfl

@[simp] theorem getLast?_trimContext :
    (trimContext budget messages).getLast? = messages.getLast? := by
  fun_induction trimContext budget messages with
  | case1 m next rest _ ih => rw [ih, getLast?_cons_cons]
  | case2 => rfl
  | case3 => rfl

/-- No suffix that fits is longer than the one the loop stops at. -/
theorem length_le_trimContext {fitting : List ContextMessage} (hsuffix : fitting <:+ messages)
    (hfits : textBytes (messagesJson fitting) ≤ budget) :
    fitting.length ≤ (trimContext budget messages).length := by
  fun_induction trimContext budget messages with
  | case1 m next rest hlong ih =>
    rcases suffix_cons_iff.1 hsuffix with rfl | hsuffix
    · omega
    · exact ih hsuffix
  | case2 => exact hsuffix.length_le
  | case3 => exact hsuffix.length_le

/-- The loop stops at a list that fits, or at a single message. -/
theorem trimContext_fits_or_single :
    textBytes (messagesJson (trimContext budget messages)) ≤ budget ∨
      (trimContext budget messages).length ≤ 1 := by
  fun_induction trimContext budget messages with
  | case1 m next rest _ ih => exact ih
  | case2 m next rest hshort => exact .inl (by omega)
  | case3 messages hne =>
    match messages, hne with
    | [], _ => exact .inr (by simp)
    | [_], _ => exact .inr (by simp)
    | m :: next :: rest, hne => exact absurd rfl (hne m next rest)

/-- The list the loop stops at fits if its last message alone does. -/
theorem trimContext_fits_iff (budget : Nat) {m : ContextMessage}
    (hlast : messages.getLast? = some m) :
    textBytes (messagesJson (trimContext budget messages)) ≤ budget ↔
      textBytes (messagesJson [m]) ≤ budget := by
  have hkept : (trimContext budget messages).getLast? = some m := by simpa using hlast
  obtain ⟨older, hkept⟩ := getLast?_eq_some_iff.1 hkept
  constructor
  · intro h
    exact (textBytes_messagesJson_mono ⟨older, hkept.symm⟩).trans h
  · intro h
    refine (trimContext_fits_or_single).elim id fun hsingle => ?_
    rw [hkept, length_append, length_singleton] at hsingle
    have holder : older = [] := length_eq_zero_iff.1 (by omega)
    rw [hkept, holder]
    exact h

/-- What `context` makes of its messages.  It answers with the longest suffix of the stripped
messages that fits beside the anchor, which ends with the source message; and it is in conflict
exactly when the messages do not end with the source or the source alone does not fit. -/
theorem context_longest_fitting_suffix (source : String) (followup : Option FollowupContext)
    (messages : List ContextMessage) :
    (∀ kept, context source followup messages = .ok kept →
      kept <:+ messages.map ContextMessage.stripped ∧
      textBytes (messagesJson kept) ≤ contextBudget followup ∧
      (∀ fitting, fitting <:+ messages.map ContextMessage.stripped →
        textBytes (messagesJson fitting) ≤ contextBudget followup → fitting.length ≤ kept.length) ∧
      ∃ m ∈ messages.getLast?, m.id = source ∧ kept.getLast? = some m.stripped) ∧
    (∀ e, context source followup messages = .error e → e = .conflict) ∧
    (context source followup messages = .error .conflict ↔
      ∀ m ∈ messages.getLast?, m.id = source →
        contextBudget followup < textBytes (messagesJson [m.stripped])) := by
  cases hlast : messages.getLast? with
  | none => simp [context, hlast]
  | some m =>
    by_cases hid : m.id = source
    · have hstripped : (messages.map ContextMessage.stripped).getLast? = some m.stripped := by
        simp [hlast]
      have hfits := trimContext_fits_iff (contextBudget followup) hstripped
      by_cases hlong : contextBudget followup < textBytes (messagesJson
          (trimContext (contextBudget followup) (messages.map ContextMessage.stripped)))
      · simp [context, hlast, hid, hlong]
        omega
      · have hlong' : ¬ contextBudget followup < textBytes (messagesJson [m.stripped]) := by omega
        simp only [context, hlast, Option.all_some, hid, ne_eq, not_true_eq_false, decide_false,
          Bool.false_eq_true, if_false, hlong, Except.ok.injEq, reduceCtorEq]
        refine ⟨?_, by simp, by simp [hid, hlong']⟩
        rintro kept rfl
        refine ⟨trimContext_suffix, by omega, ?_, m, rfl, hid, getLast?_trimContext.trans hstripped⟩
        exact fun fitting hsuffix hfitting => length_le_trimContext hsuffix hfitting
    · simp [context, hlast, hid]

end Sproyt
