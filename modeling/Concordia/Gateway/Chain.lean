import Concordia.Lib.HashChain
import Concordia.Gateway.Models
import Concordia.Gateway.Steps

/-! The integrity chain over all runs: whatever the routes do, and wherever they fail, the cards of
a proposal stay one unbroken chain, and `verify_chain` says so. -/
namespace Concordia.Gateway
open Concordia.Python Concordia.Lib.Transactions Concordia.Lib.Transition Concordia.Lib.HashChain
open Concordia.Js hiding Value

variable (env : Env)

section CardTable

/-- What a step does to the cards: it publishes some of them, or it appends the next card of a
proposal. -/
inductive CardsStep (db db' : Db) : Prop
  | same (cards : db'.cards = db.cards)
  | published (hits : CardRow → Bool) (messageId : Str) (now : Time)
      (cards : db'.cards = (publishCards hits messageId now db).2.cards)
  | appended (card : Card env.floats) (proposalId : Str) (key : Option Str) (role : Option Role)
      (requestFp : Option Str)
      (fresh : ∀ r ∈ db.cards, r.proposalId = proposalId → r.idempotencyKey.isSome →
        r.idempotencyKey ≠ key)
      (known : (db.proposal proposalId).isSome)
      (cards : db'.cards = db.cards ++ [nextRow env card proposalId key role requestFp db])

variable {env}

theorem insertCard_cards {row : CardRow} {db db' : Db} (h : db.insertCard row = some db') :
    db'.cards = db.cards ++ [row] := by
  unfold Db.insertCard at h
  simp only at h
  split at h
  · simp at h
  · rw [← Option.some.inj h]

theorem insertCard_fresh {row : CardRow} {db db' : Db} (h : db.insertCard row = some db') :
    ∀ r ∈ db.cards, r.proposalId = row.proposalId → r.idempotencyKey.isSome →
      r.idempotencyKey ≠ row.idempotencyKey := by
  intro r hr hproposal hkey hsame
  unfold Db.insertCard at h
  simp only at h
  split at h
  · cases h
  · rename_i hclash
    refine hclash (Bool.or_eq_true_iff.mpr (.inr (List.any_eq_true.mpr ⟨r, hr, ?_⟩)))
    rw [hsame] at hkey
    simp [hproposal, hsame, hkey]

theorem insertCard_known {row : CardRow} {db db' : Db} (h : db.insertCard row = some db') :
    (db.proposal row.proposalId).isSome := by
  unfold Db.insertCard at h
  simp only at h
  split at h
  · cases h
  · rename_i hclash
    cases hproposal : db.proposal row.proposalId with
    | none => exact absurd (Bool.or_eq_true_iff.mpr (.inl (by rw [hproposal]; rfl))) hclash
    | some r => rfl

theorem SealStep.cardsStep {card : Card env.floats} {proposalId : Str} {key : Option Str}
    {role : Option Role} {requestFp : Option Str} {db db' : Db} {result : Sealed env.floats}
    (h : SealStep env card proposalId key role requestFp db result db') : CardsStep env db db' := by
  cases h with
  | appended db' fresh inserted =>
    exact .appended _ _ _ _ _ (insertCard_fresh inserted) (insertCard_known inserted)
      (insertCard_cards inserted)
  | replayed existing result found parsed hash => exact .same rfl

theorem CardsStep.congr {db db' db'' : Db} (h : CardsStep env db db') (hcards : db''.cards = db'.cards) :
    CardsStep env db db'' := by
  cases h with
  | same cards => exact .same (hcards.trans cards)
  | published hits messageId now cards => exact .published hits messageId now (hcards.trans cards)
  | appended card proposalId key role requestFp fresh known cards =>
    exact .appended card proposalId key role requestFp fresh known (hcards.trans cards)

theorem insertAuthorization_cards (row : AuthorizationRow) (db : Db) :
    (insertAuthorization row db).cards = db.cards := by
  unfold insertAuthorization
  split <;> rfl

theorem addSuppressionRule_cards (proposalId : Str) (db : Db) :
    (addSuppressionRule env proposalId db).cards = db.cards := by
  simp only [addSuppressionRule]
  split
  · rfl
  · split <;> rfl

theorem CloseStep.cardsStep {closure : Closure} {more : Db → Db} {request : CloseRequest}
    {now : Time} {db db' : Db} {cardHash : Str} (hmore : ∀ db, (more db).cards = db.cards)
    (h : CloseStep env closure more request now db cardHash db') : CardsStep env db db' := by
  cases h with
  | intro row card approval behindSeal planned valid isApproval decided sealing =>
    exact sealing.cardsStep.congr (hmore _)

theorem resume_cardsStep {draws : Draws} {db db' : Db} {next : List (Job env)} {job : Job env}
    (h : resumePost env draws db next db' job) : CardsStep env db db' := by
  cases job with
  | sealCard request =>
    rcases h.2 with rfl | ⟨result, hseal⟩
    · exact .same rfl
    · exact hseal.cardsStep
  | confirm request =>
    rcases h.2 with rfl | ⟨row, newState, severity, -, rfl⟩
    · exact .same rfl
    · exact .published (isPrepared request.toConfirmBody) request.messageId draws.now rfl
  | createNonce row =>
    rcases h.2 with rfl | hinsert
    · exact .same rfl
    · unfold insertNonce at hinsert
      simp only [Option.ite_none_left_eq_some, Option.some.injEq] at hinsert
      obtain ⟨-, rfl⟩ := hinsert
      exact .same rfl
  | postChallenge request => exact .same h.1.cards
  | recordChallenge record => exact .same (by rw [h.2, challenged])
  | consumeNonce request =>
    rcases h with ⟨rfl, -⟩ | ⟨consumption, hstep, -⟩
    · exact .same rfl
    · cases hstep with
      | intro row envelopesJson card approval behindSeal _ consumable isApproval sealing target =>
        exact sealing.cardsStep.congr (insertAuthorization_cards _ _)
  | publishApproval request => exact .same h.1.cards
  | sealPolicy request =>
    rcases h with ⟨rfl, -⟩ | ⟨publication, hstep, -⟩
    · exact .same rfl
    · cases hstep with
      | intro approval behindSeal sealing =>
        exact sealing.cardsStep.congr (insertAuthorization_cards _ _)
  | publishPolicy request => exact .same h.1.cards
  | advance request =>
    rcases h.2 with rfl | ⟨-, rfl⟩
    · exact .same rfl
    · exact .published _ request.roomMessageId draws.now rfl
  | consumeAuthorization request =>
    rcases h.2 with rfl | rfl
    · exact .same rfl
    · exact .same rfl
  | revise instructions request =>
    rcases h with ⟨rfl, -⟩ | ⟨cardHash, roomId, hstep, -⟩
    · exact .same rfl
    · exact hstep.cardsStep fun _ => rfl
  | falseAlarm request =>
    rcases h with ⟨rfl, -⟩ | ⟨cardHash, roomId, hstep, -⟩
    · exact .same rfl
    · exact hstep.cardsStep (addSuppressionRule_cards _)
  | notify notification attempts => exact .same h.1.cards
  | recordNotification notification messageId =>
    rw [h.2]
    exact .published _ messageId draws.now rfl

theorem start_cards {draws : Draws} {db db' : Db} {next : List (Job env)} {request : Request}
    (h : startPost env draws db next db' request) : db'.cards = db.cards := by
  cases request with
  | prepare cardType xAgentKey xIdempotencyKey body =>
    cases h.1 with
    | same => rfl
    | inserted row fresh detected => rfl
  | decide approverId proposalId nonce decision =>
    cases decision with
    | approve => rw [h.1]
    | revise instructions => rw [h.1]
    | falseAlarm => rw [h.1]
  | createRoom xAgentKey proposalId => exact h.1.cards
  | postMessage xAgentKey roomId content senderRole metadata => exact h.1.cards
  | _ => rw [h.1]

/-- The only ways in which a step touches the cards. -/
theorem StepTo.cardsStep {sys sys' : Sys env} {action : Action} (h : StepTo env sys action sys') :
    CardsStep env sys.db sys'.db := by
  cases h with
  | request request draws next db' fresh post => exact .same (start_cards post)
  | resume index draws job next db' fresh pending post => exact resume_cardsStep post

/-- `UNIQUE(proposal_id, idempotency_key)`. -/
def UniqueKeys (db : Db) : Prop :=
  ∀ c ∈ db.cards, ∀ c' ∈ db.cards, c.proposalId = c'.proposalId →
    c.idempotencyKey = c'.idempotencyKey → c.idempotencyKey.isSome → c = c'

theorem UniqueKeys.step {db db' : Db} (h : UniqueKeys db) (hstep : CardsStep env db db') :
    UniqueKeys db' := by
  cases hstep with
  | same cards =>
    unfold UniqueKeys
    rw [cards]
    exact h
  | published hits messageId now cards =>
    unfold UniqueKeys
    rw [cards]
    intro c hc c' hc' hproposal hkey hsome
    obtain ⟨a, ha, rfl⟩ := List.mem_map.mp hc
    obtain ⟨b, hb, rfl⟩ := List.mem_map.mp hc'
    have hkeep : ∀ r : CardRow, (if hits r then
        { r with publishedAt := some now, roomMessageId := some messageId } else r).proposalId =
          r.proposalId ∧ (if hits r then
        { r with publishedAt := some now, roomMessageId := some messageId } else r).idempotencyKey =
          r.idempotencyKey := by
      intro r
      split <;> exact ⟨rfl, rfl⟩
    rw [(hkeep a).1, (hkeep b).1] at hproposal
    rw [(hkeep a).2, (hkeep b).2] at hkey
    rw [(hkeep a).2] at hsome
    rw [h a ha b hb hproposal hkey hsome]
  | appended card proposalId key role requestFp fresh known cards =>
    unfold UniqueKeys
    rw [cards]
    intro c hc c' hc' hproposal hkey hsome
    rcases List.mem_append.mp hc with hold | hnew
    · rcases List.mem_append.mp hc' with hold' | hnew'
      · exact h c hold c' hold' hproposal hkey hsome
      · obtain rfl := List.mem_singleton.mp hnew'
        exact absurd hkey (fresh c hold hproposal hsome)
    · obtain rfl := List.mem_singleton.mp hnew
      rcases List.mem_append.mp hc' with hold' | hnew'
      · exact absurd hkey.symm (fresh c' hold' hproposal.symm (hkey ▸ hsome))
      · exact (List.mem_singleton.mp hnew').symm

theorem reachable_uniqueKeys {log : List Action} {sys : Sys env}
    (h : Accepts (step env) (Sys.initial env) log sys) : sys.Idle ∧ UniqueKeys sys.db := by
  refine h.invariant (P := fun sys => sys.Idle ∧ UniqueKeys sys.db)
    ⟨rfl, fun _ hc => absurd hc List.not_mem_nil⟩ fun v a w hv hstep => ?_
  obtain ⟨hto, hidle⟩ := step_cases env hv.1 hstep
  exact ⟨hidle, hv.2.step hto.cardsStep⟩

end CardTable

section Linked

/-- What a row at a position of the chain is: numbered, hashed, and sealed behind `prev`. -/
structure FitsBehind (i : Nat) (prev : Option Str) (row : CardRow) : Prop where
  numbered : row.sequenceNumber = i + 1
  hashed : row.cardHash = hexdigest env row.cardJson
  sealed : ∃ card : Card env.floats, row.cardJson = (card.linked (i + 1) prev).canonical

/-- The rows of a proposal are one chain from its start. -/
def ChainedRows (rows : List CardRow) : Prop :=
  Linked CardRow.cardHash (FitsBehind env) 0 none rows

/-- The chains of all proposals. -/
def Chained (db : Db) : Prop := ∀ proposalId, ChainedRows env (db.cardsOf proposalId)

variable {env}

theorem lastBySequence_concat (rows : List CardRow) (row : CardRow) :
    Db.lastBySequence (rows ++ [row]) =
      if (Db.lastBySequence rows).any fun b => row.sequenceNumber ≤ b.sequenceNumber
      then Db.lastBySequence rows else some row := by
  rw [Db.lastBySequence, List.foldl_append]
  rfl

theorem lastBySequence_mem {rows : List CardRow} {row : CardRow}
    (h : Db.lastBySequence rows = some row) : row ∈ rows := by
  induction rows using List.reverseRecOn with
  | nil => simp [Db.lastBySequence] at h
  | append_singleton rows last ih =>
    rw [lastBySequence_concat] at h
    split at h
    · exact List.mem_append_left _ (ih h)
    · obtain rfl := Option.some.inj h
      simp

theorem linked_number {i : Nat} {prev : Option Str} {rows : List CardRow}
    (h : Linked CardRow.cardHash (FitsBehind env) i prev rows) :
    ∀ r ∈ rows, (i : Int) < r.sequenceNumber ∧ r.sequenceNumber ≤ i + rows.length := by
  intro r hr
  obtain ⟨j, hj, rfl⟩ := List.getElem_of_mem hr
  have hfits := (h.get (List.getElem?_eq_getElem hj)).numbered
  rw [hfits]
  constructor
  · omega
  · omega

/-- The row of the highest sequence number is the last one. -/
theorem lastBySequence_chained {rows : List CardRow} (h : ChainedRows env rows) :
    Db.lastBySequence rows = rows.getLast? := by
  induction rows using List.reverseRecOn with
  | nil => rfl
  | append_singleton rows last ih =>
    obtain ⟨hrows, hlast⟩ := linked_append.mp h
    rw [lastBySequence_concat, List.getLast?_concat]
    have hnumber := hlast.numbered
    have hold : ((Db.lastBySequence rows).any fun b =>
        last.sequenceNumber ≤ b.sequenceNumber) = false := by
      rw [Option.any_eq_false]
      intro b hb
      have := (linked_number hrows b (lastBySequence_mem hb)).2
      simp only [decide_eq_false_iff_not, not_le]
      push_cast at hnumber this
      omega
    rw [hold]
    rfl

theorem sequence_nextRow {card : Card env.floats} {proposalId : Str} {key : Option Str}
    {role : Option Role} {requestFp : Option Str} {db : Db}
    (h : ChainedRows env (db.cardsOf proposalId)) :
    FitsBehind env (db.cardsOf proposalId).length
      (lastHash CardRow.cardHash none (db.cardsOf proposalId))
      (nextRow env card proposalId key role requestFp db) := by
  have hlast := lastBySequence_chained h
  cases hget : (db.cardsOf proposalId).getLast? with
  | none =>
    have hempty : db.cardsOf proposalId = [] := List.getLast?_eq_none_iff.mp hget
    rw [hempty, List.getLast?_nil] at hlast
    refine ⟨by simp [nextRow, hlast, hempty], rfl, card, ?_⟩
    simp [nextRow, nextSealed, hlast, hempty, lastHash]
  | some prev =>
    rw [hget] at hlast
    obtain ⟨rows, hrows⟩ := List.getLast?_eq_some_iff.mp hget
    have hnumber : prev.sequenceNumber = (db.cardsOf proposalId).length := by
      rw [hrows, ChainedRows, linked_append] at h
      have := h.2.numbered
      rw [hrows]
      push_cast at this ⊢
      simpa using this
    refine ⟨by simp [nextRow, hlast, hnumber], rfl, card, ?_⟩
    simp [nextRow, nextSealed, hlast, hnumber, lastHash, hget]

theorem cardsOf_append (db db' : Db) (row : CardRow) (p : Str) (h : db'.cards = db.cards ++ [row]) :
    db'.cardsOf p = if row.proposalId = p then db.cardsOf p ++ [row] else db.cardsOf p := by
  unfold Db.cardsOf
  rw [h, List.filter_append]
  split <;> simp_all

theorem cardsOf_published (db db' : Db) (hits : CardRow → Bool) (messageId : Str) (now : Time)
    (p : Str) (h : db'.cards = (publishCards hits messageId now db).2.cards) :
    db'.cardsOf p = (db.cardsOf p).map fun r =>
      if hits r then { r with publishedAt := some now, roomMessageId := some messageId } else r := by
  unfold Db.cardsOf
  rw [h, publishCards, List.filter_map]
  congr 1
  refine List.filter_congr fun r _ => ?_
  simp only [Function.comp_apply]
  split <;> rfl

/-- One step keeps every chain. -/
theorem Chained.step {db db' : Db} (h : Chained env db) (hstep : CardsStep env db db') :
    Chained env db' := by
  intro p
  cases hstep with
  | same cards =>
    unfold Db.cardsOf
    rw [cards]
    exact h p
  | published hits messageId now cards =>
    rw [cardsOf_published db db' hits messageId now p cards]
    refine (h p).map _ (fun row => ?_) fun i prev row hfits => ?_
    · split <;> rfl
    · split
      · exact ⟨hfits.numbered, hfits.hashed, hfits.sealed⟩
      · exact hfits
  | appended card proposalId key role requestFp fresh known cards =>
    rw [cardsOf_append db db' _ p cards]
    split
    · rename_i hp
      obtain rfl : proposalId = p := hp
      refine linked_append.mpr ⟨h proposalId, ?_⟩
      rw [Nat.zero_add]
      exact sequence_nextRow (h proposalId)
    · exact h p

theorem initial_chained (env : Env) : Chained env (Sys.initial env).db := fun _ => trivial

/-- Every reachable state: no transaction is open, and every chain is unbroken. -/
theorem reachable_chained {log : List Action} {sys : Sys env}
    (h : Accepts (step env) (Sys.initial env) log sys) :
    sys.Idle ∧ Chained env sys.db := by
  refine h.invariant (P := fun sys => sys.Idle ∧ Chained env sys.db)
    ⟨rfl, initial_chained env⟩ fun v a w hv hstep => ?_
  obtain ⟨hto, hidle⟩ := step_cases env hv.1 hstep
  exact ⟨hidle, hv.2.step hto.cardsStep⟩

end Linked

section Verify

/-- A text that parsing and dumping gives back. -/
def Reparses (row : CardRow) : Prop :=
  (parseCard env row.cardJson).map Card.canonical = some row.cardJson

variable {env}

theorem sortKeys_none : sortKeys .none = .none := by
  simp [sortKeys]

theorem sortKeys_optStr (s : Option Str) : sortKeys (optStr s) = optStr s := by
  cases s <;> simp [sortKeys, optStr]

theorem sortKeys_get {d e : Dict} (hd : WellFormed env.floats (.dict d))
    (he : WellFormed env.floats (.dict e)) (h : dumpsSorted (.dict d) = dumpsSorted (.dict e))
    (key : String) : sortKeys (d.get key) = sortKeys (e.get key) := by
  have hlookup := lookup_of_dumpsSorted hd he h (js key)
  unfold Dict.get
  rw [← Option.getD_map sortKeys, ← Option.getD_map sortKeys, hlookup]

theorem eq_optStr_of_sortKeys {v : Value} {s : Option Str} (h : sortKeys v = optStr s) :
    v = optStr s := by
  cases v <;> cases s <;> simp_all [sortKeys, optStr]

/-- The link field that a sealed text carries. -/
theorem previous_of_canonical {card behind : Card env.floats} {n : Int} {prev : Option Str}
    (h : card.canonical = (behind.linked n prev).canonical) :
    card.dump.get "previous_card_hash" = optStr prev := by
  refine eq_optStr_of_sortKeys ?_
  rw [sortKeys_get card.wellFormed (behind.linked n prev).wellFormed h]
  have hlink : (behind.linked n prev).dump.get "previous_card_hash" = optStr prev :=
    get_set_self _ _ _
  rw [hlink, sortKeys_optStr]

theorem chainErrors_linked {i : Nat} {prev : Option Str} {rows : List CardRow}
    (h : Linked CardRow.cardHash (FitsBehind env) i prev rows)
    (hparse : ∀ row ∈ rows, Reparses env row) :
    chainErrors env i prev rows = some [] := by
  induction rows generalizing i prev with
  | nil => rfl
  | cons row rows ih =>
    obtain ⟨hfits, hrows⟩ := h
    obtain ⟨card, hcard, hcanonical⟩ := Option.map_eq_some_iff.mp (hparse row List.mem_cons_self)
    obtain ⟨behind, hbehind⟩ := hfits.sealed
    have hlink := previous_of_canonical (hcanonical.trans hbehind)
    have hhash : card.computeHash env = row.cardHash := by
      rw [Card.computeHash, hcanonical, hfits.hashed]
    have herrors : rowErrors env (i + 1) prev row card = [] := by
      simp [rowErrors, hlink, isOptStr_iff, hhash, hfits.numbered]
    rw [chainErrors, hcard, ih hrows fun r hr => hparse r (List.mem_cons_of_mem _ hr)]
    simp [herrors]

theorem chainOf_chained {db : Db} {p : Str} (h : ChainedRows env (db.cardsOf p)) :
    db.chainOf p = db.cardsOf p := by
  unfold Db.chainOf
  refine List.Pairwise.insertionSort_eq ?_
  rw [List.pairwise_iff_getElem]
  intro i j hi hj hij
  have hfirst := (h.get (List.getElem?_eq_getElem hi)).numbered
  have hsecond := (h.get (List.getElem?_eq_getElem hj)).numbered
  rw [hfirst, hsecond]
  omega

end Verify

section Integrity

/-- The hash that row `i` of a chain has to name: its predecessor's. -/
def predecessorHash (rows : List CardRow) : Nat → Option Str
  | 0 => none
  | i + 1 => rows[i]?.map (·.cardHash)

/-- What an intact chain is: numbers without a gap, texts with their digests and their links, and
a verification without errors. -/
structure Intact (db : Db) (p : Str) : Prop where
  numbered : ∀ (i : Nat) (row : CardRow), (db.chainOf p)[i]? = some row →
    row.sequenceNumber = i + 1
  hashed : ∀ row ∈ db.chainOf p, row.cardHash = hexdigest env row.cardJson
  linked : ∀ (i : Nat) (row : CardRow), (db.chainOf p)[i]? = some row →
    ∃ data, rowData env row = some data ∧ data.get "previous_card_hash" = optStr (predecessorHash (db.chainOf p) i)
  verified : verifyChain env p db = some (true, [])

variable {env}

theorem lastHash_take {rows : List CardRow} {i : Nat} {row : CardRow} (h : rows[i]? = some row) :
    lastHash CardRow.cardHash none (rows.take i) = predecessorHash rows i := by
  cases i with
  | zero => rfl
  | succ i =>
    have hi : i < rows.length := by
      have := (List.getElem?_eq_some_iff.mp h).1
      omega
    rw [predecessorHash, lastHash, List.getLast?_take]
    simp [List.getElem?_eq_getElem hi]

/-- The fields that a sealed text carries. -/
theorem rowData_canonical {row : CardRow} {card : Card env.floats}
    (h : row.cardJson = card.canonical) : ∃ data, rowData env row = some data ∧
      ∀ name, data.get name = sortKeys (card.dump.get name) := by
  have hloads : loads env.floats row.cardJson = some (sortKeys (.dict card.dump)) := by
    rw [h, Card.canonical, loads_dumpsSorted card.wellFormed]
  refine ⟨_, by rw [rowData, hloads, sortKeys_dict], fun name => ?_⟩
  unfold Dict.get
  have hmap := Option.getD_map sortKeys .none (card.dump.lookup (js name))
  rw [sortKeys_none] at hmap
  rw [lookup_sortedItems card.wellFormed.1, hmap]

/-- The stored link of a row that was sealed behind `prev`. -/
theorem rowData_sealed {row : CardRow} {card : Card env.floats} {n : Int} {prev : Option Str}
    (h : row.cardJson = (card.linked n prev).canonical) :
    ∃ data, rowData env row = some data ∧ data.get "previous_card_hash" = optStr prev := by
  obtain ⟨data, hdata, hget⟩ := rowData_canonical h
  have hlink : (card.linked n prev).dump.get "previous_card_hash" = optStr prev :=
    get_set_self _ _ _
  exact ⟨data, hdata, by rw [hget, hlink, sortKeys_optStr]⟩

/-- The fields that the chain does not touch. -/
theorem linked_get {card : Card env.floats} {n : Int} {prev : Option Str} {name : String}
    (hsequence : js name ≠ js "sequence_number") (hprevious : js name ≠ js "previous_card_hash") :
    (card.linked n prev).dump.get name = card.dump.get name := by
  unfold Card.linked
  rw [get_set_other hprevious, get_set_other hsequence]

theorem nextRow_cardJson (card : Card env.floats) (proposalId : Str) (key : Option Str)
    (role : Option Role) (requestFp : Option Str) (db : Db) : ∃ n prev,
      (nextRow env card proposalId key role requestFp db).cardJson =
        (card.linked n prev).canonical := by
  unfold nextRow nextSealed
  cases Db.lastBySequence (db.cardsOf proposalId) with
  | none => exact ⟨1, none, rfl⟩
  | some prev => exact ⟨prev.sequenceNumber + 1, some prev.cardHash, rfl⟩

/-- The fields of a card that was just sealed. -/
theorem rowData_nextRow (card : Card env.floats) (proposalId : Str) (key : Option Str)
    (role : Option Role) (requestFp : Option Str) (db : Db) : ∃ data,
      rowData env (nextRow env card proposalId key role requestFp db) = some data ∧
        ∀ name, js name ≠ js "sequence_number" → js name ≠ js "previous_card_hash" →
          data.get name = sortKeys (card.dump.get name) := by
  obtain ⟨n, prev, hjson⟩ := nextRow_cardJson card proposalId key role requestFp db
  obtain ⟨data, hdata, hget⟩ := rowData_canonical hjson
  exact ⟨data, hdata, fun name hsequence hprevious => by
    rw [hget, linked_get hsequence hprevious]⟩

/-- In every reachable state the cards of every proposal are one intact chain, provided that the
stored texts parse and dump back. -/
theorem reachable_intact {log : List Action} {sys : Sys env}
    (h : Accepts (step env) (Sys.initial env) log sys)
    (hparse : ∀ row ∈ sys.db.cards, Reparses env row) (p : Str) : Intact env sys.db p := by
  have hchain := (reachable_chained h).2 p
  have hrows := chainOf_chained hchain
  have hmem : ∀ row ∈ sys.db.cardsOf p, Reparses env row := fun row hrow =>
    hparse row (List.mem_of_mem_filter hrow)
  constructor
  · intro i row hrow
    rw [hrows] at hrow
    have := (hchain.get hrow).numbered
    simpa using this
  · intro row hrow
    rw [hrows] at hrow
    obtain ⟨i, hi, rfl⟩ := List.getElem_of_mem hrow
    exact (hchain.get (List.getElem?_eq_getElem hi)).hashed
  · intro i row hrow
    rw [hrows] at hrow ⊢
    obtain ⟨card, hcard⟩ := (hchain.get hrow).sealed
    rw [lastHash_take hrow] at hcard
    exact rowData_sealed hcard
  · rw [verifyChain, hrows, verifyRows, chainErrors_linked hchain hmem]
    rfl

/-- Two sealed cards, parsed and dumped back. -/
theorem reachable_intact_example : sampleSealed.1.db.cards.length = 2 ∧
    Intact sampleEnv sampleSealed.1.db (js "P1") :=
  ⟨by decide +kernel,
    reachable_intact (run_accepts _ _ _) (by unfold Reparses; decide +kernel) (js "P1")⟩

end Integrity
end Concordia.Gateway
