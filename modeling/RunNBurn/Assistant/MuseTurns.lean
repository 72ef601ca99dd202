import RunNBurn.Assistant.TurnFilter

/-!
# Texts of Muse turns

A turn names its recipient and carries a body.  The parser reads every turn, and the filter
stops looking at the markers behind the first turn that it takes for the user's.
-/

namespace RunNBurn
namespace Assistant

open Library

def museMarkers : List Text :=
  [museEndMessage, museEndTurn, museMessage]

structure MuseTurn where
  lead : Text
  recipient : Text
  body : Text
  lead_blank : forall c, c ∈ lead -> isWhitespace c = true
  named : trim recipient ≠ []
  recipient_free : forall marker, marker ∈ museMarkers -> ¬ marker <:+: recipient
  body_free : forall marker, marker ∈ museMarkers -> ¬ marker <:+: body

namespace MuseTurn

def text (turn : MuseTurn) : Text :=
  turn.lead ++ ("to=".toList ++ (turn.recipient ++ (museMessage ++ turn.body)))

def isUser (turn : MuseTurn) : Bool :=
  trim turn.recipient = "user".toList

def isPlain (turn : MuseTurn) : Bool :=
  turn.lead = " ".toList ∧ turn.recipient = "user".toList

end MuseTurn

/-- What stands behind a turn: the other turns and what the text ends with. -/
def following : List MuseTurn -> Text -> Text
  | [], ending => ending
  | turn :: later, ending => museNextAssistant ++ (turn.text ++ following later ending)

def endMarker (endTurn : Bool) : Text :=
  if endTurn then museEndTurn else []

def museText (first : MuseTurn) (later : List MuseTurn) (endTurn : Bool) : Text :=
  first.text ++ following later (endMarker endTurn)

def userBodies (turns : List MuseTurn) : Text :=
  (turns.filter MuseTurn.isUser).flatMap MuseTurn.body

/-!
# Where markers start
-/

/-- What cannot complete a marker: nothing, or a text that begins with a bracket. -/
def Closed (rest : Text) : Prop :=
  forall c, rest.head? = some c -> c = '<'

variable (later : List MuseTurn)

theorem following_closed (endTurn : Bool) :
    Closed (following later (endMarker endTurn)) := by
  intro c hc
  cases later with
  | nil =>
    cases endTurn with
    | false => cases hc
    | true =>
      cases hc
      rfl
  | cons turn later =>
    cases hc
    rfl

theorem startsNowhere_of_free {marker tail text rest : Text} (hmarker : marker = '<' :: tail)
    (htail : '<' ∉ tail) (hfree : ¬ marker <:+: text) (hrest : Closed rest) :
    StartsNowhere marker text rest := by
  rw [hmarker] at hfree ⊢
  apply startsNowhere_of_not_infix hfree
  intro c hc
  rw [hrest c hc]
  exact htail

theorem blank_no_bracket {text : Text} (h : forall c, c ∈ text -> isWhitespace c = true) :
    '<' ∉ text := by
  intro hmem
  have hblank := h '<' hmem
  revert hblank
  decide

theorem endMessage_starts : museEndMessage <+: museNextUser := by
  rw [← List.isPrefixOf_iff_prefix]
  decide

namespace MuseTurn

variable {turn : MuseTurn} {rest : Text}

theorem message_nowhere_in_recipient (turn : MuseTurn) (rest : Text) :
    StartsNowhere museMessage ("to=".toList ++ turn.recipient) (museMessage ++ rest) := by
  apply startsNowhere_append
  · exact startsNowhere_of_head (by decide)
  · refine startsNowhere_of_free rfl (by decide) (turn.recipient_free museMessage ?_) ?_
    · simp [museMarkers]
    · intro c hc
      cases hc
      rfl

theorem endMessage_nowhere_in_body (turn : MuseTurn) (hrest : Closed rest) :
    StartsNowhere museEndMessage turn.body rest := by
  refine startsNowhere_of_free rfl (by decide) (turn.body_free museEndMessage ?_) hrest
  simp [museMarkers]

theorem endMessage_nowhere (turn : MuseTurn) (hrest : Closed rest) :
    StartsNowhere museEndMessage turn.text rest := by
  apply startsNowhere_append
  · exact startsNowhere_of_head (blank_no_bracket turn.lead_blank)
  · apply startsNowhere_append
    · exact startsNowhere_of_head (by decide)
    · apply startsNowhere_append
      · refine startsNowhere_of_free rfl (by decide)
          (turn.recipient_free museEndMessage ?_) ?_
        · simp [museMarkers]
        · intro c hc
          cases hc
          rfl
      · apply startsNowhere_append
        · exact startsNowhere_of_tellsApart (by decide)
        · exact turn.endMessage_nowhere_in_body hrest

theorem nextUser_prefix_iff :
    museNextUser <+: museNextAssistant ++ (turn.text ++ rest) ↔ turn.isPlain = true := by
  have hmarker : museNextUser =
      museNextAssistant ++ (' ' :: ("to=".toList ++ ("user".toList ++ museMessage))) := by
    decide
  rw [hmarker, List.prefix_append_right_inj]
  unfold isPlain
  rw [decide_eq_true_eq]
  constructor
  · intro h
    unfold text at h
    rcases turn with ⟨lead, recipient, body, hlead, _, hrecipient, hbody⟩
    dsimp only at h ⊢
    cases lead with
    | nil =>
      rw [List.nil_append, List.append_assoc] at h
      exact absurd (List.cons_prefix_cons.mp h).1 (by decide)
    | cons c lead =>
      rw [List.cons_append, List.cons_append, List.cons_prefix_cons] at h
      rcases h with ⟨hc, h⟩
      cases lead with
      | nil =>
        rw [List.nil_append, List.append_assoc, List.prefix_append_right_inj,
          List.append_assoc, List.append_assoc] at h
        rcases h with ⟨behind, hsame⟩
        refine ⟨by rw [← hc]; rfl, ?_⟩
        have huser : splitAtWord museMessage
            ("user".toList ++ (museMessage ++ behind)) = some ("user".toList, behind) :=
          splitAtWord_of_startsNowhere (startsNowhere_of_head (by decide))
        have hread : splitAtWord museMessage (recipient ++ (museMessage ++ (body ++ rest))) =
            some (recipient, body ++ rest) := by
          apply splitAtWord_of_startsNowhere
          refine startsNowhere_of_free rfl (by decide) (hrecipient museMessage ?_) ?_
          · simp [museMarkers]
          · intro c hc
            cases hc
            rfl
        rw [List.append_assoc] at hsame
        rw [← hsame, huser] at hread
        cases hread
        rfl
      | cons d lead =>
        have hblank := hlead d (List.mem_cons_of_mem c List.mem_cons_self)
        have hd : 't' = d := (List.cons_prefix_cons.mp h).1
        rw [← hd] at hblank
        exact absurd hblank (by decide)
  · intro h
    unfold text
    rw [h.1, h.2]
    refine ⟨turn.body ++ rest, ?_⟩
    simp

theorem nextUser_nowhere (turn : MuseTurn) (hplain : turn.isPlain = false) (hrest : Closed rest) :
    StartsNowhere museNextUser (museNextAssistant ++ turn.text) rest := by
  have hhead : museNextAssistant = '<' :: museNextAssistant.tail := by
    decide
  rw [hhead, List.cons_append]
  apply startsNowhere_cons
  · intro h
    have hstarts : museNextUser <+: museNextAssistant ++ (turn.text ++ rest) := by
      rw [hhead]
      simpa using h
    rw [nextUser_prefix_iff, hplain] at hstarts
    cases hstarts
  · apply startsNowhere_append
    · exact (startsNowhere_of_tellsApart (by decide)).of_start endMessage_starts
    · exact (turn.endMessage_nowhere hrest).of_start endMessage_starts

end MuseTurn

/-!
# What the filter hands on
-/

/-- The text behind the first plain turn's message marker, the turns behind it included. -/
def handedOn (ending : Text) : List MuseTurn -> Text
  | [] => []
  | turn :: later =>
    if turn.isPlain then turn.body ++ following later ending else handedOn ending later

variable {turn : MuseTurn}

theorem following_plain (hplain : turn.isPlain = true) (later : List MuseTurn) (ending : Text) :
    following (turn :: later) ending =
      museNextUser ++ (turn.body ++ following later ending) := by
  have hmarker : museNextUser =
      museNextAssistant ++ (" ".toList ++ ("to=".toList ++ ("user".toList ++ museMessage))) := by
    decide
  have hparts := of_decide_eq_true hplain
  show museNextAssistant ++ (turn.text ++ following later ending) = _
  unfold MuseTurn.text
  rw [hparts.1, hparts.2, hmarker]
  simp only [List.append_assoc]

theorem behindWord_nextUser (endTurn : Bool) :
    behindWord museNextUser (following later (endMarker endTurn)) =
      handedOn (endMarker endTurn) later := by
  induction later with
  | nil =>
    apply behindWord_of_not_infix
    intro h
    have hlength := h.length_le
    cases endTurn <;> exact absurd hlength (by decide)
  | cons turn later ih =>
    unfold handedOn
    cases hplain : turn.isPlain with
    | true => rw [following_plain hplain, behindWord_here, if_pos rfl]
    | false =>
      have hclosed := following_closed later endTurn
      unfold following
      rw [← List.append_assoc, behindWord_append (turn.nextUser_nowhere hplain hclosed), ih,
        if_neg Bool.false_ne_true]

theorem trimStart_text (turn : MuseTurn) (rest : Text) :
    trimStart (turn.text ++ rest) =
      "to=".toList ++ (turn.recipient ++ (museMessage ++ (turn.body ++ rest))) := by
  unfold MuseTurn.text
  rw [List.append_assoc, trimStart_lead turn.lead_blank]
  simp only [List.append_assoc]
  exact trimStart_cons (by decide) _

theorem splitAtWord_message (turn : MuseTurn) (rest : Text) :
    splitAtWord museMessage
        ("to=".toList ++ (turn.recipient ++ (museMessage ++ (turn.body ++ rest)))) =
      some ("to=".toList ++ turn.recipient, turn.body ++ rest) := by
  rw [← List.append_assoc "to=".toList]
  exact splitAtWord_of_startsNowhere (turn.message_nowhere_in_recipient _)

/-- Behind a first turn for the user everything is handed on; behind another one, what
stands behind the first plain turn. -/
theorem streamed_museText (first : MuseTurn) (later : List MuseTurn) (endTurn : Bool)
    (pieces : List Text) (hpieces : pieces.flatten = museText first later endTurn) :
    AssistantTurnStreamFilter.streamed true pieces =
      if first.isUser then first.body ++ following later (endMarker endTurn)
      else handedOn (endMarker endTurn) later := by
  have hclosed := following_closed later endTurn
  have htrim := trimStart_text first (following later (endMarker endTurn))
  have hmessage := splitAtWord_message first (following later (endMarker endTurn))
  rw [← htrim] at hmessage
  have hshort : ¬ trimStart (first.text ++ following later (endMarker endTurn)) <+:
      "to=".toList := by
    rw [htrim]
    intro h
    have hlength := h.length_le
    have hword : "to=".toList.length = 3 := rfl
    have hmarker : museMessage.length = 11 := rfl
    rw [List.length_append, List.length_append, List.length_append, hword, hmarker] at hlength
    omega
  have hlong : "to=".toList <+:
      trimStart (first.text ++ following later (endMarker endTurn)) := by
    rw [htrim]
    exact List.prefix_append _ _
  have hskip : behindWord museNextUser (first.text ++ following later (endMarker endTurn)) =
      handedOn (endMarker endTurn) later := by
    rw [behindWord_append ((first.endMessage_nowhere hclosed).of_start endMessage_starts),
      behindWord_nextUser]
  unfold museText at hpieces
  rw [← hpieces] at hshort hlong hmessage hskip
  rw [AssistantTurnStreamFilter.streamed_of_header hshort hlong hmessage, hskip]
  have hrecipient : ("to=".toList ++ first.recipient).drop 3 = first.recipient := rfl
  rw [hrecipient]
  exact if_congr decide_eq_true_iff.symm rfl rfl

/-!
# What the parser reads
-/

def absorbTurns (serde : SerdeJson) (allowedTools : List Text) (output : MuseOutput)
    (turns : List MuseTurn) : Except String MuseOutput :=
  turns.foldlM (fun output turn =>
    absorbTurn serde allowedTools output (trim turn.recipient) turn.body) output

theorem turnBody_of_free {body : Text}
    (hfree : forall marker, marker ∈ museMarkers -> ¬ marker <:+: body) :
    turnBody body = body := by
  have hturn : stripSuffix museEndTurn body = none :=
    stripSuffix_of_not_suffix fun h => hfree museEndTurn (by simp [museMarkers]) h.isInfix
  have hmessage : stripSuffix museEndMessage body = none :=
    stripSuffix_of_not_suffix fun h => hfree museEndMessage (by simp [museMarkers]) h.isInfix
  unfold turnBody
  rw [hturn, hmessage]
  rfl

theorem turnBody_last (turn : MuseTurn) (endTurn : Bool) :
    turnBody (turn.body ++ endMarker endTurn) = turn.body := by
  cases endTurn with
  | false =>
    unfold endMarker
    rw [if_neg Bool.false_ne_true, List.append_nil]
    exact turnBody_of_free turn.body_free
  | true =>
    unfold endMarker turnBody
    rw [if_pos rfl, stripSuffix_append]
    rfl

theorem nextAssistant_starts : museEndMessage <+: museNextAssistant := by
  rw [← List.isPrefixOf_iff_prefix]
  decide

theorem splitAtWord_nextAssistant_last (turn : MuseTurn) (endTurn : Bool) :
    splitAtWord museNextAssistant (turn.body ++ endMarker endTurn) = none := by
  have hclosed : Closed (endMarker endTurn) := following_closed [] endTurn
  have hnone : splitAtWord museNextAssistant (endMarker endTurn) = none := by
    rw [splitAtWord_eq_none]
    intro h
    have hlength := h.length_le
    cases endTurn <;> exact absurd hlength (by decide)
  rw [splitAtWord_append
    ((turn.endMessage_nowhere_in_body hclosed).of_start nextAssistant_starts), hnone]
  rfl

theorem splitAtWord_nextAssistant (turn : MuseTurn) (rest : Text) :
    splitAtWord museNextAssistant (turn.body ++ (museNextAssistant ++ rest)) =
      some (turn.body, rest) := by
  apply splitAtWord_of_startsNowhere
  refine (turn.endMessage_nowhere_in_body ?_).of_start nextAssistant_starts
  intro c hc
  cases hc
  rfl

theorem museTurns_text (serde : SerdeJson) (allowedTools : List Text) (endTurn : Bool)
    (first : MuseTurn) (later : List MuseTurn) (output : MuseOutput) {rounds : Nat}
    (hrounds : later.length < rounds) :
    museTurns serde allowedTools rounds output (trimStart (museText first later endTurn)) =
      (absorbTurns serde allowedTools output (first :: later)).map some := by
  induction later generalizing first output rounds with
  | nil =>
    cases rounds with
    | zero => cases hrounds
    | succ rounds =>
      unfold museText museTurns
      rw [trimStart_text, splitAtWord_message]
      dsimp only
      have hrecipient : ("to=".toList ++ first.recipient).drop 3 = first.recipient := rfl
      rw [hrecipient, if_neg first.named]
      unfold following
      rw [splitAtWord_nextAssistant_last, turnBody_last]
      unfold absorbTurns
      rw [List.foldlM_cons]
      cases absorbTurn serde allowedTools output (trim first.recipient) first.body with
      | error complaint => rfl
      | ok output => rfl
  | cons next later ih =>
    cases rounds with
    | zero => cases hrounds
    | succ rounds =>
      have hnext := trimStart_text next (following later (endMarker endTurn))
      unfold museText museTurns
      rw [trimStart_text, splitAtWord_message]
      dsimp only
      have hrecipient : ("to=".toList ++ first.recipient).drop 3 = first.recipient := rfl
      rw [hrecipient, if_neg first.named]
      unfold following
      rw [splitAtWord_nextAssistant]
      dsimp only
      rw [turnBody_of_free first.body_free]
      unfold absorbTurns
      rw [List.foldlM_cons]
      cases absorbTurn serde allowedTools output (trim first.recipient) first.body with
      | error complaint => rfl
      | ok output =>
        have hlong : "to=".toList <+:
            trimStart (next.text ++ following later (endMarker endTurn)) := by
          rw [hnext]
          exact List.prefix_append _ _
        show (if _ then _ else _) = _
        rw [if_pos hlong]
        exact ih next output (Nat.lt_of_succ_lt_succ hrounds)

theorem length_following_le (ending : Text) :
    later.length <= (following later ending).length := by
  induction later with
  | nil => exact Nat.zero_le _
  | cons turn later ih =>
    have hmarker : museNextAssistant.length = 25 := rfl
    unfold following
    rw [List.length_cons, List.length_append, List.length_append, hmarker]
    omega

theorem parseMuseOutput_museText (serde : SerdeJson) (allowedTools : List Text)
    (first : MuseTurn) (later : List MuseTurn) (endTurn : Bool) :
    parseMuseOutput serde (museText first later endTurn) allowedTools =
      (absorbTurns serde allowedTools
        { reasoning := []
          content := []
          toolCalls := [] } (first :: later)).map some := by
  have htrim := trimStart_text first (following later (endMarker endTurn))
  have hturns := length_following_le later (endMarker endTurn)
  unfold parseMuseOutput
  have hstarts : "to=".toList <+: trimStart (museText first later endTurn) := by
    unfold museText
    rw [htrim]
    exact List.prefix_append _ _
  have hlength : later.length < (trimStart (museText first later endTurn)).length := by
    have hmarker : museMessage.length = 11 := rfl
    unfold museText
    rw [htrim, List.length_append, List.length_append, List.length_append, List.length_append,
      hmarker]
    omega
  have hlonger : trimStart (museText first later endTurn) ≠ "to=".toList := by
    unfold museText
    intro h
    rw [htrim] at h
    have hlength := congrArg List.length h
    have hword : "to=".toList.length = 3 := rfl
    have hmarker : museMessage.length = 11 := rfl
    rw [List.length_append, List.length_append, List.length_append, hword, hmarker] at hlength
    omega
  have hmuse : ¬ (¬ "to=".toList <+: trimStart (museText first later endTurn) ∨
      trimStart (museText first later endTurn) = "to=".toList) := by
    rw [not_or, not_not]
    exact ⟨hstarts, hlonger⟩
  dsimp only
  rw [if_neg hmuse]
  exact museTurns_text serde allowedTools endTurn first later _ (Nat.lt_succ_of_lt hlength)

theorem content_absorbTurn {serde : SerdeJson} {allowedTools : List Text}
    {output absorbed : MuseOutput}
    (h : absorbTurn serde allowedTools output (trim turn.recipient) turn.body = .ok absorbed) :
    absorbed.content = output.content ++ userBodies [turn] := by
  have huser : userBodies [turn] =
      if trim turn.recipient = "user".toList then turn.body else [] := by
    unfold userBodies
    by_cases hrecipient : trim turn.recipient = "user".toList
    · have hkept : turn.isUser = true := decide_eq_true hrecipient
      rw [if_pos hrecipient, List.filter_cons_of_pos hkept]
      exact List.append_nil turn.body
    · have hdropped : ¬ turn.isUser = true := by
        rw [MuseTurn.isUser, decide_eq_true_eq]
        exact hrecipient
      rw [if_neg hrecipient, List.filter_cons_of_neg hdropped]
      rfl
  rw [huser]
  unfold absorbTurn at h
  split at h
  · rename_i hself
    have hother : trim turn.recipient ≠ "user".toList := by
      rw [hself]
      decide
    rw [if_neg hother, List.append_nil]
    cases h
    split <;> rfl
  · split at h
    · rename_i hrecipient
      rw [if_pos hrecipient]
      cases h
      rfl
    · rename_i hother
      rw [if_neg hother, List.append_nil]
      split at h
      · cases h
      · cases hcalls : parseAtemCalls serde turn.body (trim turn.recipient) allowedTools with
        | error complaint =>
          rw [hcalls] at h
          cases h
        | ok calls =>
          rw [hcalls] at h
          cases h
          rfl

theorem userBodies_cons (turn : MuseTurn) (turns : List MuseTurn) :
    userBodies (turn :: turns) = userBodies [turn] ++ userBodies turns := by
  unfold userBodies
  rw [List.filter_cons, List.filter_cons]
  cases turn.isUser <;> simp

theorem content_absorbTurns {serde : SerdeJson} {allowedTools : List Text}
    {output absorbed : MuseOutput} {turns : List MuseTurn}
    (h : absorbTurns serde allowedTools output turns = .ok absorbed) :
    absorbed.content = output.content ++ userBodies turns := by
  induction turns generalizing output with
  | nil =>
    cases h
    exact (List.append_nil _).symm
  | cons turn turns ih =>
    unfold absorbTurns at h
    rw [List.foldlM_cons] at h
    cases hturn : absorbTurn serde allowedTools output (trim turn.recipient) turn.body with
    | error complaint =>
      rw [hturn] at h
      cases h
    | ok next =>
      rw [hturn] at h
      rw [ih h, content_absorbTurn hturn, userBodies_cons turn turns, List.append_assoc]

/-!
# When the filter agrees with the parser
-/

/-- Behind a turn that is not the user's the filter skips only turns that say nothing to the
user, and the turn that it takes for the user's ends the text. -/
def LaterStreams (endTurn : Bool) : List MuseTurn -> Prop
  | [] => True
  | turn :: later =>
    if turn.isPlain then later = [] ∧ endTurn = false
    else (turn.isUser = true -> turn.body = []) ∧ LaterStreams endTurn later

def TurnsStream (first : MuseTurn) (later : List MuseTurn) (endTurn : Bool) : Prop :=
  if first.isUser then later = [] ∧ endTurn = false else LaterStreams endTurn later

/-- The user is sent what the turns say to the user, which is the content that is parsed,
and no marker. -/
structure StreamsContent (serde : SerdeJson) (allowedTools : List Text) (first : MuseTurn)
    (later : List MuseTurn) (endTurn : Bool) (pieces : List Text) : Prop where
  exact : AssistantTurnStreamFilter.streamed true pieces = userBodies (first :: later)
  parsed : forall output,
    parseMuseOutput serde (museText first later endTurn) allowedTools = .ok output ->
    output.map MuseOutput.content = some (userBodies (first :: later))
  unmarked : forall marker, marker ∈ museMarkers ->
    ¬ marker <:+: AssistantTurnStreamFilter.streamed true pieces

theorem marker_in_following {later : List MuseTurn} {endTurn : Bool} (front : Text)
    (h : ¬ (later = [] ∧ endTurn = false)) :
    exists marker, marker ∈ museMarkers ∧
      marker <:+: front ++ following later (endMarker endTurn) := by
  cases later with
  | nil =>
    cases endTurn with
    | false => exact absurd ⟨rfl, rfl⟩ h
    | true =>
      refine ⟨museEndTurn, by simp [museMarkers], ?_⟩
      exact (List.suffix_append front museEndTurn).isInfix
  | cons turn later =>
    refine ⟨museEndMessage, by simp [museMarkers], ?_⟩
    unfold following
    exact (nextAssistant_starts.trans (List.prefix_append _ _)).isInfix.trans
      (List.suffix_append front _).isInfix

theorem isUser_of_isPlain (h : turn.isPlain = true) : turn.isUser = true := by
  have hparts := of_decide_eq_true h
  unfold MuseTurn.isUser
  rw [hparts.2]
  decide

theorem userBodies_of_isUser (h : turn.isUser = true) :
    userBodies [turn] = turn.body := by
  unfold userBodies
  rw [List.filter_cons_of_pos h]
  exact List.append_nil turn.body

theorem userBodies_of_not_isUser (h : turn.isUser = false) :
    userBodies [turn] = [] := by
  unfold userBodies
  rw [List.filter_cons_of_neg (by rw [h]; exact Bool.false_ne_true)]
  rfl

theorem laterStreams_iff (endTurn : Bool) (front : Text) :
    (handedOn (endMarker endTurn) later = front ++ userBodies later ∧
        forall marker, marker ∈ museMarkers ->
          ¬ marker <:+: handedOn (endMarker endTurn) later) ↔
      front = [] ∧ LaterStreams endTurn later := by
  induction later generalizing front with
  | nil =>
    unfold handedOn LaterStreams userBodies
    constructor
    · intro h
      have hfront := h.1.symm
      simp only [List.filter_nil, List.flatMap_nil, List.append_nil] at hfront
      exact ⟨hfront, trivial⟩
    · intro h
      rw [h.1]
      refine ⟨rfl, ?_⟩
      intro marker hmarker hinside
      rw [List.infix_nil] at hinside
      rw [hinside] at hmarker
      revert hmarker
      decide
  | cons turn later ih =>
    unfold handedOn LaterStreams
    rw [userBodies_cons]
    cases hplain : turn.isPlain with
    | true =>
      rw [if_pos rfl, if_pos rfl, userBodies_of_isUser (isUser_of_isPlain hplain)]
      constructor
      · intro h
        by_cases hend : later = [] ∧ endTurn = false
        · have hsame := h.1
          rw [hend.1, hend.2] at hsame
          have hlength := congrArg List.length hsame
          simp [following, endMarker, userBodies] at hlength
          exact ⟨hlength, hend⟩
        · rcases marker_in_following turn.body hend with
            ⟨marker, hmarker, hinside⟩
          exact absurd hinside (h.2 marker hmarker)
      · intro h
        rw [h.1, h.2.1, h.2.2]
        refine ⟨rfl, ?_⟩
        intro marker hmarker hinside
        simp only [following, endMarker, Bool.false_eq_true, if_false, List.append_nil]
          at hinside
        exact turn.body_free marker hmarker hinside
    | false =>
      rw [if_neg Bool.false_ne_true, if_neg Bool.false_ne_true]
      cases huser : turn.isUser with
      | true =>
        rw [userBodies_of_isUser huser, ← List.append_assoc, ih (front ++ turn.body),
          List.append_eq_nil_iff, and_assoc]
        simp
      | false =>
        rw [userBodies_of_not_isUser huser, List.nil_append, ih front]
        simp

/-- However the text is cut, the stream agrees with the parser exactly when nothing stands
behind the turn that the filter takes for the user's and no other turn speaks to the user. -/
theorem streamsContent_iff (serde : SerdeJson) (allowedTools : List Text)
    (first : MuseTurn) (later : List MuseTurn) (endTurn : Bool) (pieces : List Text)
    (hpieces : pieces.flatten = museText first later endTurn) :
    StreamsContent serde allowedTools first later endTurn pieces ↔
      TurnsStream first later endTurn := by
  have hparsed : forall output,
      parseMuseOutput serde (museText first later endTurn) allowedTools = .ok output ->
      output.map MuseOutput.content = some (userBodies (first :: later)) := by
    intro output houtput
    rw [parseMuseOutput_museText] at houtput
    cases hturns : absorbTurns serde allowedTools
        { reasoning := [], content := [], toolCalls := [] } (first :: later) with
    | error complaint =>
      rw [hturns] at houtput
      cases houtput
    | ok absorbed =>
      rw [hturns] at houtput
      cases houtput
      exact congrArg some (content_absorbTurns hturns)
  have hstreamed := streamed_museText first later endTurn pieces hpieces
  have hiff : (AssistantTurnStreamFilter.streamed true pieces = userBodies (first :: later) ∧
      forall marker, marker ∈ museMarkers ->
        ¬ marker <:+: AssistantTurnStreamFilter.streamed true pieces) ↔
      TurnsStream first later endTurn := by
    unfold TurnsStream
    rw [hstreamed, userBodies_cons]
    cases huser : first.isUser with
    | true =>
      rw [if_pos rfl, if_pos rfl, userBodies_of_isUser huser]
      constructor
      · intro h
        by_cases hend : later = [] ∧ endTurn = false
        · exact hend
        · rcases marker_in_following first.body hend with ⟨marker, hmarker, hinside⟩
          exact absurd hinside (h.2 marker hmarker)
      · intro h
        rw [h.1, h.2]
        refine ⟨rfl, ?_⟩
        intro marker hmarker hinside
        simp only [following, endMarker, Bool.false_eq_true, if_false, List.append_nil]
          at hinside
        exact first.body_free marker hmarker hinside
    | false =>
      rw [if_neg Bool.false_ne_true, if_neg Bool.false_ne_true,
        userBodies_of_not_isUser huser, laterStreams_iff]
      exact and_iff_right rfl
  constructor
  · intro h
    exact hiff.mp ⟨h.exact, h.unmarked⟩
  · intro h
    have hboth := hiff.mpr h
    exact ⟨hboth.1, hparsed, hboth.2⟩

def isFree (text : Text) : Bool :=
  museMarkers.all fun marker => (splitAtWord marker text).isNone

theorem not_infix_of_isFree {text : Text} (h : isFree text = true) :
    forall marker, marker ∈ museMarkers -> ¬ marker <:+: text := by
  intro marker hmarker
  exact splitAtWord_eq_none.mp (Option.isNone_iff_eq_none.mp (List.all_eq_true.mp h marker hmarker))

def MuseTurn.written (recipient body : String) (named : trim recipient.toList ≠ [])
    (recipient_free : isFree recipient.toList = true)
    (body_free : isFree body.toList = true) : MuseTurn where
  lead := [' ']
  recipient := recipient.toList
  body := body.toList
  lead_blank := fun c hc => by
    rw [List.mem_singleton] at hc
    rw [hc]
    rfl
  named := named
  recipient_free := not_infix_of_isFree recipient_free
  body_free := not_infix_of_isFree body_free

def thinkingTurn : MuseTurn :=
  MuseTurn.written "self" "think" (by decide) (by decide) (by decide)

def answeringTurn : MuseTurn :=
  MuseTurn.written "user" "hi" (by decide) (by decide) (by decide)

def unusedSerde : SerdeJson where
  fromStr := fun _ => .error "unused"
  toString := fun _ => []

theorem streamsContent_two_turns :
    StreamsContent unusedSerde [] thinkingTurn [answeringTurn] false
      [" to=se".toList, "lf<|message|>think<|eom|><|sta".toList,
        "rt|>assistant to=user<|message|>h".toList, "i".toList] :=
  (streamsContent_iff unusedSerde [] thinkingTurn [answeringTurn] false _ (by decide)).mpr
    ⟨rfl, rfl⟩

/-- A thought behind the answer is sent to the user. -/
theorem thought_is_streamed :
    ¬ StreamsContent unusedSerde [] answeringTurn [thinkingTurn] false
      [museText answeringTurn [thinkingTurn] false] := by
  intro h
  exact absurd h.exact (by decide)

end Assistant
end RunNBurn
