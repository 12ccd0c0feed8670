import XenMiner.Lib.Run
import XenMiner.Monitoring.WalletBalances

/-!
# Refreshes of the wallet balances

`fetch_wallet_balances` fails in two ways: with an exception that the worker catches, which clears the
flag, and with one that it does not catch.  The second happens exactly if an endpoint answers with
something that is no text, or too large a number (`fetch_escapes_iff`).  From that and the place where the
flag is cleared follows in which runs a refresh can always be followed by another (`refreshFree_iff`).

A snapshot holds three balances of one fetch without a substitute (`snapshot_fresh`).
-/

namespace XenMiner.WalletBalances

/-! ### What the endpoints answer -/

/-- The result in a reply: an object without an error, whose result is not null. -/
def answer : Except PyExc Json → Option Json
  | .ok (.obj members) =>
    match (Json.obj members).get "error", (Json.obj members).get "result" with
    | none, some .null => none
    | none, result => result
    | some _, _ => none
  | _ => none

/-- The first endpoint that answers decides. -/
def firstAnswer (net : Net) (rpcUrls : List String) (method : String) (params : List Json) :
    Option Json :=
  rpcUrls.findSome? fun url => answer (net url method params 0)

/-- An answer that is a text, and no number beyond the floats. -/
def Convertible (raw : Json) : Prop :=
  ∃ s, raw = .str s ∧ ∀ wei ∈ parseHex s, PyFloat.Fits ((wei : ℚ) / (weiPerToken : ℚ))

variable {pyStr : Json → String}

theorem readBody_eq_ok_iff {reply : Except PyExc Json} {method : String} {result : Json} :
    reply.bind (readBody pyStr method) = .ok result ↔ answer reply = some result := by
  cases reply with
  | error e => simp [answer, Except.bind]
  | ok body =>
    show readBody pyStr method body = _ ↔ _
    cases body with
    | obj members =>
      unfold readBody answer
      dsimp only
      cases (Json.obj members).get "error" with
      | some error => simp
      | none =>
        cases (Json.obj members).get "result" with
        | none => simp
        | some result' => cases result' <;> simp
    | str s =>
      unfold readBody answer
      dsimp only
      split_ifs <;> simp
    | arr items =>
      unfold readBody answer
      dsimp only
      split_ifs <;> simp
    | null => simp [readBody, answer]
    | bool b => simp [readBody, answer]
    | int n => simp [readBody, answer]
    | float literal => simp [readBody, answer]

/-- One try for each endpoint. -/
theorem rpcCall_one (net : Net) (url method : String) (params : List Json) :
    rpcCall pyStr net url method params 1 = (net url method params 0).bind (readBody pyStr method) := rfl

theorem rpcCallLoop_spec (net : Net) (method : String) (params : List Json) (urls errors : List String) :
    match firstAnswer net urls method params with
    | some result => rpcCallLoop pyStr net method params errors urls = .ok result
    | none => ∃ e, rpcCallLoop pyStr net method params errors urls = .error e ∧ e.kind = .runtimeError := by
  induction urls generalizing errors with
  | nil => exact ⟨_, rfl, rfl⟩
  | cons url urls ih =>
    unfold firstAnswer
    rw [List.findSome?_cons, rpcCallLoop, rpcCall_one]
    cases hreply : (net url method params 0).bind (readBody pyStr method) with
    | ok result =>
      rw [readBody_eq_ok_iff.mp hreply]
    | error e =>
      have hnone : answer (net url method params 0) = none := by
        cases hanswer : answer (net url method params 0) with
        | none => rfl
        | some result =>
          rw [readBody_eq_ok_iff.mpr hanswer] at hreply
          cases hreply
      rw [hnone]
      exact ih (errors ++ [url ++ ": " ++ e.text])

/-! ### What escapes -/

/-- A call ends with an exception that nobody catches. -/
def Escapes {α : Type} (result : Except PyExc α) : Prop :=
  ∃ e, result = .error e ∧ caughtByFetch e.kind = false

/-- A query of the fetch: a method and its parameters. -/
structure Query where
  method : String
  params : List Json

/-- `eth_getBalance`. -/
def nativeQuery (wallet : String) : Query where
  method := "eth_getBalance"
  params := [.str wallet, .str "latest"]

/-- `eth_call` of a contract. -/
def erc20Query (contract wallet : String) : Query where
  method := "eth_call"
  params := [.obj [("to", .str contract),
    ("data", .str ("0x70a08231" ++ rjustZeros 64 (PyStr.lower (PyStr.drop 2 wallet))))], .str "latest"]

/-- The queries of a fetch. -/
def queries (wallet : String) : List Query :=
  [nativeQuery wallet, erc20Query xuniContract wallet, erc20Query xblkContract wallet]

/-- The balance a query yields. -/
def balanceOf (pyStr : Json → String) (net : Net) (urls : List String) (q : Query) :
    Except PyExc PyFloat :=
  (rpcCallAny pyStr net urls q.method q.params).bind tokens

theorem tokens_of_none {s : String} (h : parseHex s = none) : tokens (.str s)
    = .error { kind := .valueError, text := "invalid literal for int() with base 16" } := by
  unfold tokens
  simp only [h]

theorem tokens_of_some {s : String} {wei : ℤ} (h : parseHex s = some wei) : tokens (.str s) =
    if PyFloat.Fits ((wei : ℚ) / (weiPerToken : ℚ)) then
      .ok (.finite ((wei : ℚ) / (weiPerToken : ℚ)))
    else .error
      { kind := .overflowError, text := "integer division result too large for a float" } := by
  unfold tokens PyFloat.divInt
  simp only [h]
  split_ifs <;> rfl

theorem tokens_escapes_iff {raw : Json} : Escapes (tokens raw) ↔ ¬ Convertible raw := by
  unfold Convertible
  cases raw with
  | str s =>
    cases hparse : parseHex s with
    | none =>
      rw [tokens_of_none hparse]
      refine iff_of_false ?_ ?_
      · rintro ⟨e, he, hkind⟩
        rw [← Except.error.inj he] at hkind
        cases hkind
      · rw [not_not]
        refine ⟨s, rfl, fun wei hwei => ?_⟩
        rw [hparse] at hwei
        cases hwei
    | some wei =>
      rw [tokens_of_some hparse]
      split_ifs with hfits
      · refine iff_of_false ?_ ?_
        · rintro ⟨e, he, -⟩
          cases he
        · rw [not_not]
          refine ⟨s, rfl, fun wei' hwei => ?_⟩
          rw [hparse] at hwei
          rw [← Option.some.inj hwei]
          exact hfits
      · refine iff_of_true ⟨_, rfl, rfl⟩ ?_
        rintro ⟨s', hs, hall⟩
        rw [← Json.str.inj hs, hparse] at hall
        exact hfits (hall wei rfl)
  | null => exact iff_of_true ⟨_, rfl, rfl⟩ (by simp)
  | bool b => exact iff_of_true ⟨_, rfl, rfl⟩ (by simp)
  | int n => exact iff_of_true ⟨_, rfl, rfl⟩ (by simp)
  | float literal => exact iff_of_true ⟨_, rfl, rfl⟩ (by simp)
  | arr items => exact iff_of_true ⟨_, rfl, rfl⟩ (by simp)
  | obj members => exact iff_of_true ⟨_, rfl, rfl⟩ (by simp)

theorem balanceOf_escapes_iff {net : Net} {urls : List String} {q : Query} :
    Escapes (balanceOf pyStr net urls q) ↔
      ∃ raw ∈ firstAnswer net urls q.method q.params, ¬ Convertible raw := by
  have hspec := @rpcCallLoop_spec pyStr net q.method q.params urls []
  unfold balanceOf rpcCallAny
  cases hanswer : firstAnswer net urls q.method q.params with
  | none =>
    rw [hanswer] at hspec
    obtain ⟨e, he, hkind⟩ := hspec
    rw [he]
    refine iff_of_false ?_ (by simp)
    rintro ⟨e', he', hescapes⟩
    rw [← Except.error.inj he', hkind] at hescapes
    cases hescapes
  | some raw =>
    rw [hanswer] at hspec
    dsimp only at hspec
    rw [hspec]
    show Escapes (tokens raw) ↔ _
    rw [tokens_escapes_iff]
    simp

theorem balanceOf_of_answer {net : Net} {urls : List String} {q : Query} {raw : Json}
    (h : firstAnswer net urls q.method q.params = some raw) :
    balanceOf pyStr net urls q = tokens raw := by
  have hspec := @rpcCallLoop_spec pyStr net q.method q.params urls []
  rw [h] at hspec
  dsimp only at hspec
  unfold balanceOf rpcCallAny
  rw [hspec]
  rfl

/-- What `_fetch_token` returns for a token that failed. -/
def substitute (label : String) (fallback : Option PyFloat) (e : PyExc) :
    Option PyFloat × Option String :=
  match fallback with
  | some value => (some value, some label)
  | none => (some (.finite 0), some (label ++ ": " ++ e.text))

theorem fetchToken_of_caught {e : PyExc} (h : caughtByFetch e.kind = true) (label : String)
    (fallback : Option PyFloat) :
    fetchToken label (.error e) fallback = .ok (substitute label fallback e) := by
  unfold fetchToken substitute
  dsimp only
  rw [if_pos h]
  cases fallback <;> rfl

/-- What `_fetch_token` lets through. -/
theorem fetchToken_of_not_caught {e : PyExc} (h : caughtByFetch e.kind = false) (label : String)
    (fallback : Option PyFloat) : fetchToken label (.error e) fallback = .error e :=
  if_neg (by rw [h]; exact Bool.false_ne_true)

theorem collectBalances_not_escapes (xnm xuni xblk : Option PyFloat) (notes : Notes)
    (fallback : Option TokenBalances) : ¬ Escapes (collectBalances xnm xuni xblk notes fallback) := by
  rintro ⟨e, he, hkind⟩
  have hruntime : e.kind = .runtimeError := by
    unfold collectBalances at he
    split at he
    · split_ifs at he
      exact congrArg PyExc.kind (Except.error.inj he).symm
    · exact congrArg PyExc.kind (Except.error.inj he).symm
  rw [hruntime] at hkind
  cases hkind

/-- Every answer that decides a query can be converted. -/
def RepliesConvert (net : Net) (wallet rpcUrl : String) (rpcUrls : List String) : Prop :=
  ∀ q ∈ queries wallet, ∀ raw ∈ firstAnswer net (normalizeRpcUrls rpcUrl rpcUrls) q.method q.params,
    Convertible raw

theorem bind_escapes_iff {α β : Type} {x : Except PyExc α} {f : α → Except PyExc β} :
    Escapes (x >>= f) ↔ Escapes x ∨ ∃ a, x = .ok a ∧ Escapes (f a) := by
  cases x with
  | error e => simp [Escapes, bind, Except.bind]
  | ok a => simp [Escapes, bind, Except.bind]

theorem fetchToken_escapes_iff {label : String} {fetched : Except PyExc PyFloat}
    {fallback : Option PyFloat} : Escapes (fetchToken label fetched fallback) ↔ Escapes fetched := by
  cases fetched with
  | ok value =>
    refine iff_of_false ?_ ?_
    · rintro ⟨e, he, -⟩
      cases he
    · rintro ⟨e, he, -⟩
      cases he
  | error e =>
    cases hcaught : caughtByFetch e.kind with
    | true =>
      rw [fetchToken_of_caught hcaught]
      refine iff_of_false ?_ ?_
      · rintro ⟨e', he, -⟩
        cases he
      · rintro ⟨e', he, hfalse⟩
        rw [← Except.error.inj he, hcaught] at hfalse
        cases hfalse
    | false =>
      exact iff_of_true ⟨e, fetchToken_of_not_caught hcaught label fallback, hcaught⟩
        ⟨e, rfl, hcaught⟩

/-- A fetch that does not escape goes on. -/
theorem fetchToken_isOk {label : String} {fetched : Except PyExc PyFloat} {fallback : Option PyFloat}
    (h : ¬ Escapes fetched) : ∃ x, fetchToken label fetched fallback = .ok x := by
  cases fetched with
  | ok value => exact ⟨_, rfl⟩
  | error e =>
    cases hcaught : caughtByFetch e.kind with
    | true => exact ⟨_, fetchToken_of_caught hcaught label fallback⟩
    | false => exact absurd ⟨e, rfl, hcaught⟩ h

/-- A step of the fetch that does not escape. -/
theorem fetchToken_bind_escapes_iff {β : Type} {label : String} {fetched : Except PyExc PyFloat}
    {fallback : Option PyFloat} {f : Option PyFloat × Option String → Except PyExc β} {P : Prop}
    (hf : ∀ x, Escapes (f x) ↔ P) :
    Escapes (fetchToken label fetched fallback >>= f) ↔ Escapes fetched ∨ P := by
  rw [bind_escapes_iff, fetchToken_escapes_iff]
  by_cases hfetched : Escapes fetched
  · exact iff_of_true (Or.inl hfetched) (Or.inl hfetched)
  · obtain ⟨x, hx⟩ : ∃ x, fetchToken label fetched fallback = .ok x := fetchToken_isOk hfetched
    refine or_congr_right ⟨?_, fun hP => ⟨x, hx, (hf x).mpr hP⟩⟩
    rintro ⟨a, -, ha⟩
    exact (hf a).mp ha

/-- A fetch ends with an exception nobody catches exactly if an answer cannot be converted. -/
theorem fetch_escapes_iff {net : Net} {wallet rpcUrl : String} {rpcUrls : List String}
    {fallback : Option TokenBalances} :
    Escapes (fetchWalletBalances pyStr net wallet rpcUrl rpcUrls fallback) ↔
      ¬ RepliesConvert net wallet rpcUrl rpcUrls := by
  unfold fetchWalletBalances
  dsimp only
  rw [fetchToken_bind_escapes_iff fun xnm => fetchToken_bind_escapes_iff fun xuni =>
    fetchToken_bind_escapes_iff fun xblk =>
      iff_false_intro (collectBalances_not_escapes xnm.1 xuni.1 xblk.1 _ fallback)]
  have hquery : ∀ q : Query, Escapes (balanceOf pyStr net (normalizeRpcUrls rpcUrl rpcUrls) q) ↔
      ¬ ∀ raw ∈ firstAnswer net (normalizeRpcUrls rpcUrl rpcUrls) q.method q.params,
        Convertible raw := by
    intro q
    rw [balanceOf_escapes_iff]
    push Not
    rfl
  unfold RepliesConvert queries
  rw [List.forall_mem_cons, List.forall_mem_cons, List.forall_mem_singleton, not_and_or, not_and_or,
    ← hquery, ← hquery, ← hquery, or_false]
  rfl

/-! ### What is not fresh is marked -/

theorem bind_eq_ok_iff {α β : Type} {x : Except PyExc α} {f : α → Except PyExc β} {b : β} :
    x >>= f = .ok b ↔ ∃ a, x = .ok a ∧ f a = .ok b := by
  cases x with
  | error e => simp [bind, Except.bind]
  | ok a => simp [bind, Except.bind]

/-- A label of a token: a text without a colon, and without spaces around it. -/
structure IsLabel (label : String) : Prop where
  ne_empty : label ≠ ""
  colon : ':' ∉ label.toList
  strip : PyStr.strip label = label

theorem isLabel_xnm : IsLabel "XNM" := ⟨by decide, by decide, by decide⟩

theorem isLabel_xuni : IsLabel "XUNI" := ⟨by decide, by decide, by decide⟩

theorem isLabel_xblk : IsLabel "XBLK" := ⟨by decide, by decide, by decide⟩

/-- A note on a token: its label, with a text behind it if there was no fallback. -/
def IsNote (label note : String) : Prop := note = label ∨ ∃ text, note = label ++ ": " ++ text

variable {label note : String}

theorem noteLabel_eq (hlabel : IsLabel label) (text : String) :
    noteLabel (label ++ ": " ++ text) = label := by
  have htake : ((label ++ ": " ++ text).toList.takeWhile (· ≠ ':')) = label.toList := by
    rw [String.toList_append, String.toList_append, List.append_assoc,
      List.takeWhile_append_of_pos]
    · show label.toList ++ List.takeWhile (· ≠ ':') (':' :: ' ' :: text.toList) = label.toList
      rw [List.takeWhile_cons_of_neg (by simp), List.append_nil]
    · intro c hc
      simpa using fun heq : c = ':' => hlabel.colon (heq ▸ hc)
  unfold noteLabel
  rw [htake, String.ofList_toList, hlabel.strip]

/-- A value without a note was fetched. -/
theorem fetchToken_eq_ok {fetched : Except PyExc PyFloat} {fallback : Option PyFloat}
    {x : Option PyFloat × Option String} (h : fetchToken label fetched fallback = .ok x) :
    (∀ note ∈ x.2, IsNote label note) ∧
      (x.2 = none → ∃ value, fetched = .ok value ∧ x.1 = some value) := by
  cases fetched with
  | ok value =>
    rw [← Except.ok.inj h]
    exact ⟨fun note hnote => (by cases hnote), fun _ => ⟨value, rfl, rfl⟩⟩
  | error e =>
    cases hcaught : caughtByFetch e.kind with
    | false =>
      rw [fetchToken_of_not_caught hcaught] at h
      cases h
    | true =>
      rw [fetchToken_of_caught hcaught] at h
      rw [← Except.ok.inj h]
      cases fallback with
      | none =>
        refine ⟨fun note hnote => ?_, fun hnone => (by cases hnone)⟩
        rw [← Option.some.inj hnote]
        exact Or.inr ⟨e.text, rfl⟩
      | some value =>
        refine ⟨fun note hnote => ?_, fun hnone => (by cases hnone)⟩
        rw [← Option.some.inj hnote]
        exact Or.inl rfl

namespace Notes

variable (notes : Notes)

/-- No token is filed. -/
def Clean : Prop := notes.cached = [] ∧ notes.failed = []

/-- Every failure names its token. -/
def Labelled : Prop := ∀ note ∈ notes.failed, noteLabel note ≠ ""

variable {notes}

theorem labelled_add (h : notes.Labelled) (hlabel : IsLabel label) {note : Option String}
    (hnote : ∀ n ∈ note, IsNote label n) : (notes.add label note).Labelled := by
  cases note with
  | none => exact h
  | some note =>
    unfold add
    dsimp only
    split_ifs with hcached
    · exact h
    · rcases hnote note rfl with heq | ⟨text, rfl⟩
      · exact absurd heq hcached
      · intro t ht
        rcases List.mem_append.mp ht with hold | hnew
        · exact h t hold
        · rw [List.mem_singleton.mp hnew, noteLabel_eq hlabel]
          exact hlabel.ne_empty
    · exact h

/-- A note that is filed stays. -/
theorem clean_add (hlabel : IsLabel label) {note : Option String} (hnote : ∀ n ∈ note, IsNote label n)
    (h : (notes.add label note).Clean) : notes.Clean ∧ note = none := by
  cases note with
  | none => exact ⟨h, rfl⟩
  | some note =>
    have hne : note ≠ "" := by
      rcases hnote note rfl with rfl | ⟨text, rfl⟩
      · exact hlabel.ne_empty
      · intro hempty
        have hlength := congrArg (fun s => s.toList.length) hempty
        simp [String.toList_append] at hlength
    unfold add Clean at h
    dsimp only at h
    split_ifs at h
    · simp at h
    · simp at h

end Notes

theorem softMarker_ne_nil {cached : List String} (h : cached ≠ [] ∨ noteLabel note ≠ "") :
    softMarker cached note ≠ [] := by
  unfold softMarker
  split_ifs with hnew
  · simp
  · rw [not_and, not_not] at hnew
    rcases h with h | h
    · exact h
    · exact List.ne_nil_of_mem (hnew h)

theorem foldl_softMarker_ne_nil {cached : List String} (h : cached ≠ []) (failed : List String) :
    failed.foldl softMarker cached ≠ [] := by
  induction failed generalizing cached with
  | nil => exact h
  | cons note failed ih =>
    rw [List.foldl_cons]
    exact ih (softMarker_ne_nil (Or.inl h))

/-- Marks are missing only where no token is filed. -/
theorem clean_of_foldl_eq_nil {notes : Notes} (h : notes.Labelled)
    (hnil : notes.failed.foldl softMarker notes.cached = []) : notes.Clean := by
  have hcached : notes.cached = [] := by
    by_contra hne
    exact foldl_softMarker_ne_nil hne _ hnil
  refine ⟨hcached, ?_⟩
  unfold Notes.Labelled at h
  cases hfailed : notes.failed with
  | nil => rfl
  | cons note failed =>
    rw [hfailed] at h hnil
    rw [List.foldl_cons] at hnil
    have hmark : softMarker notes.cached note ≠ [] :=
      softMarker_ne_nil (Or.inr (h note List.mem_cons_self))
    exact absurd hnil (foldl_softMarker_ne_nil hmark failed)

theorem collectBalances_eq_ok {xnm xuni xblk : Option PyFloat} {notes : Notes}
    {fallback : Option TokenBalances} {b : TokenBalances} {cached : List String}
    (h : collectBalances xnm xuni xblk notes fallback = .ok (b, cached)) :
    xnm = some b.xnm ∧ xuni = some b.xuni ∧ xblk = some b.xblk ∧
      cached = notes.failed.foldl softMarker notes.cached := by
  unfold collectBalances at h
  split at h
  · split_ifs at h
    have hpair := Prod.mk.inj (Except.ok.inj h)
    rw [← hpair.1]
    exact ⟨rfl, rfl, rfl, hpair.2.symm⟩
  · cases h

/-- The three values of a fetch without a substitute. -/
structure FreshBalances (pyStr : Json → String) (net : Net) (wallet rpcUrl : String)
    (rpcUrls : List String) (b : TokenBalances) : Prop where
  xnm : nativeBalance pyStr net (normalizeRpcUrls rpcUrl rpcUrls) wallet = .ok b.xnm
  xuni : erc20Balance pyStr net (normalizeRpcUrls rpcUrl rpcUrls) xuniContract wallet = .ok b.xuni
  xblk : erc20Balance pyStr net (normalizeRpcUrls rpcUrl rpcUrls) xblkContract wallet = .ok b.xblk

/-- A token that is not fresh leaves a note, which shows in the end. -/
theorem fetch_eq_ok_nil_iff {net : Net} {wallet rpcUrl : String} {rpcUrls : List String}
    {fallback : Option TokenBalances} {b : TokenBalances} :
    fetchWalletBalances pyStr net wallet rpcUrl rpcUrls fallback = .ok (b, []) ↔
      FreshBalances pyStr net wallet rpcUrl rpcUrls b := by
  constructor
  · intro h
    obtain ⟨xnm, hxnm, h⟩ := bind_eq_ok_iff.mp h
    obtain ⟨xuni, hxuni, h⟩ := bind_eq_ok_iff.mp h
    obtain ⟨xblk, hxblk, h⟩ := bind_eq_ok_iff.mp h
    obtain ⟨hxnm', hxuni', hxblk', hnil⟩ := collectBalances_eq_ok h
    obtain ⟨hnote, hvalue⟩ := fetchToken_eq_ok hxnm
    obtain ⟨hnote', hvalue'⟩ := fetchToken_eq_ok hxuni
    obtain ⟨hnote'', hvalue''⟩ := fetchToken_eq_ok hxblk
    have hclean := clean_of_foldl_eq_nil (Notes.labelled_add (Notes.labelled_add (Notes.labelled_add
      (fun _ hmem => (by cases hmem)) isLabel_xnm hnote) isLabel_xuni hnote') isLabel_xblk hnote'')
      hnil.symm
    obtain ⟨hclean, hnone''⟩ := Notes.clean_add isLabel_xblk hnote'' hclean
    obtain ⟨hclean, hnone'⟩ := Notes.clean_add isLabel_xuni hnote' hclean
    obtain ⟨-, hnone⟩ := Notes.clean_add isLabel_xnm hnote hclean
    obtain ⟨v, hv, hx⟩ := hvalue hnone
    obtain ⟨v', hv', hx'⟩ := hvalue' hnone'
    obtain ⟨v'', hv'', hx''⟩ := hvalue'' hnone''
    rw [hx, Option.some.injEq] at hxnm'
    rw [hx', Option.some.injEq] at hxuni'
    rw [hx'', Option.some.injEq] at hxblk'
    exact ⟨hxnm' ▸ hv, hxuni' ▸ hv', hxblk' ▸ hv''⟩
  · intro h
    unfold fetchWalletBalances
    dsimp only
    rw [h.xnm, h.xuni, h.xblk]
    rfl

/-! ### One refresh at a time -/

/-- A place before the worker's second turn with the lock. -/
def RefreshPlace.isFetching : RefreshPlace → Bool
  | .started => true
  | .fetching _ => true
  | _ => false

namespace Tracker

variable (s : Tracker)

/-- The number of workers that have not ended. -/
def running : ℕ := s.workers.countP (· ≠ .ended)

/-- At most one worker runs, and without one the flag is clear. -/
structure RefreshFree : Prop where
  running_le : s.running ≤ 1
  clear : s.running = 0 → s.refreshing = false

/-- While a worker fetches, the flag is set. -/
def FlagSet : Prop := ∀ place ∈ s.workers, place.isFetching = true → s.refreshing = true

/-- What keeps refreshes in order: none is due while a worker saves its snapshot, and a fetch gets
answers that can be converted. -/
def Orderly (s : Tracker) : Turn → Prop
  | .refresh now force =>
    s.due now force = true → s.refreshing = false →
      ∀ place ∈ s.workers, ∀ balances, place ≠ .saving balances
  | .fetch i net _ =>
    ∀ fallback, s.workers[i]? = some (.fetching fallback) →
      RepliesConvert net s.wallet s.rpcUrl s.rpcUrls
  | _ => True

/-- A worker that saves while the flag is set has another one beside it. -/
def SavesAside : Prop :=
  ∀ place ∈ s.workers, ∀ balances, place = .saving balances → s.refreshing = true → 2 ≤ s.running

variable {s} {i : ℕ} {place : RefreshPlace}

theorem running_pos (h : place ∈ s.workers) (hplace : place ≠ .ended) : 0 < s.running :=
  List.countP_pos_iff.mpr ⟨place, h, by simpa using hplace⟩

theorem running_eq_zero_iff : s.running = 0 ↔ ∀ place ∈ s.workers, place = .ended := by
  unfold running
  rw [List.countP_eq_zero]
  simp

/-- A worker takes another place. -/
theorem running_setPlace {t : Tracker} {w : RefreshPlace} (h : s.workers[i]? = some w)
    (hw : w ≠ .ended) (ht : t.workers = s.workers.set i place) :
    t.running + 1 = s.running + if place = .ended then 0 else 1 := by
  obtain ⟨hi, hget⟩ := List.getElem?_eq_some_iff.mp h
  have hpos : 0 < s.running := running_pos (List.mem_of_getElem? h) hw
  unfold running at hpos ⊢
  rw [ht, List.countP_set hi, hget]
  rw [if_pos (by simpa using hw)]
  by_cases hplace : place = .ended
  · rw [if_pos hplace, if_neg (by simp [hplace])]
    omega
  · rw [if_neg hplace, if_pos (by simpa using hplace)]
    omega

/-! ### What a turn does -/

theorem maybeRefresh_of_not_due {now : ℚ} {force : Bool}
    (h : s.due now force = false ∨ s.refreshing = true) : s.maybeRefresh now force = s := if_pos h

theorem maybeRefresh_of_due {now : ℚ} {force : Bool} (hdue : s.due now force = true)
    (hclear : s.refreshing = false) :
    (s.maybeRefresh now force).workers = s.workers ++ [.started] ∧
      (s.maybeRefresh now force).refreshing = true := by
  unfold maybeRefresh
  rw [if_neg (by simp [hdue, hclear])]
  exact ⟨rfl, rfl⟩

theorem finish_of_escapes {time : ℚ} {result : Except PyExc (TokenBalances × List String)}
    (h : Escapes result) : s.finish i time result = s.setPlace i .ended := by
  obtain ⟨e, rfl, hkind⟩ := h
  exact if_neg (by rw [hkind]; exact Bool.false_ne_true)

/-- A fetch that ends in any other way clears the flag. -/
theorem finish_of_not_escapes {time : ℚ} {result : Except PyExc (TokenBalances × List String)}
    (h : ¬ Escapes result) : (s.finish i time result).refreshing = false ∧
      ∃ place, RefreshPlace.isFetching place = false ∧
        (s.finish i time result).workers = s.workers.set i place := by
  cases result with
  | ok x =>
    refine ⟨rfl, _, ?_, rfl⟩
    split_ifs <;> rfl
  | error e =>
    have hcaught : caughtByFetch e.kind = true := by
      by_contra hnot
      exact h ⟨e, rfl, by simpa using hnot⟩
    have hfinish : (s.finish i time (.error e)) = setPlace
        { s with
          lastError := some (PyStr.take 160 e.text)
          status := if s.current.isNone then "rpc error" else "stale"
          refreshing := false }
        i .ended := if_pos hcaught
    rw [hfinish]
    exact ⟨rfl, .ended, rfl, rfl⟩

theorem step_begin (pyStr : Json → String) (s : Tracker) (i : ℕ) :
    s.workers[i]? = some .started ∧ step pyStr s (.begin i) = s.setPlace i (.fetching s.current) ∨
      step pyStr s (.begin i) = s := by
  unfold step
  dsimp only
  split
  next h => exact Or.inl ⟨h, rfl⟩
  next => exact Or.inr rfl

theorem step_fetch (pyStr : Json → String) (s : Tracker) (i : ℕ) (net : Net) (time : ℚ) :
    (∃ fallback, s.workers[i]? = some (.fetching fallback) ∧ step pyStr s (.fetch i net time) =
        s.finish i time (fetchWalletBalances pyStr net s.wallet s.rpcUrl s.rpcUrls fallback)) ∨
      (∀ fallback, s.workers[i]? ≠ some (.fetching fallback)) ∧
        step pyStr s (.fetch i net time) = s := by
  unfold step
  dsimp only
  split
  next fallback h => exact Or.inl ⟨fallback, h, rfl⟩
  next h => exact Or.inr ⟨fun fallback heq => h fallback heq, rfl⟩

theorem step_record (pyStr : Json → String) (s : Tracker) (i : ℕ) (day capturedAt : String)
    (outcome : SaveOutcome) :
    (∃ balances, s.workers[i]? = some (.saving balances) ∧
        step pyStr s (.record i day capturedAt outcome)
          = (s.recordSnapshot balances day capturedAt outcome).setPlace i .ended) ∨
      step pyStr s (.record i day capturedAt outcome) = s := by
  unfold step
  dsimp only
  split
  next balances h => exact Or.inl ⟨balances, h, rfl⟩
  next => exact Or.inr rfl

/-! ### Runs -/

/-- With the flag clear, only a worker that saves can run. -/
theorem running_eq_zero_iff_of_clear (hflag : s.FlagSet) (hclear : s.refreshing = false) :
    s.running = 0 ↔ ∀ place ∈ s.workers, ∀ balances, place ≠ .saving balances := by
  rw [running_eq_zero_iff]
  constructor
  · intro h place hplace balances hsaving
    rw [h place hplace] at hsaving
    cases hsaving
  · intro h place hplace
    have hnot : place.isFetching ≠ true := by
      intro hfetching
      rw [hflag place hplace hfetching] at hclear
      cases hclear
    cases place with
    | started => exact absurd rfl hnot
    | fetching fallback => exact absurd rfl hnot
    | saving balances => exact absurd rfl (h _ hplace balances)
    | ended => rfl

/-- The worker that runs is the only one. -/
theorem running_eq_one (hfree : s.RefreshFree) (h : s.workers[i]? = some place)
    (hplace : place ≠ .ended) : s.running = 1 := by
  have hpos := running_pos (List.mem_of_getElem? h) hplace
  have hle := hfree.running_le
  omega

/-- A turn keeps refreshes in order exactly if it is orderly. -/
theorem refreshFree_step_iff (pyStr : Json → String) (s : Tracker) (turn : Turn)
    (hfree : s.RefreshFree) (hinv : s.FlagSet ∧ s.SavesAside) :
    (step pyStr s turn).RefreshFree ↔ Orderly s turn := by
  obtain ⟨hflag, haside⟩ := hinv
  cases turn with
  | refresh now force =>
    show (s.maybeRefresh now force).RefreshFree ↔ _
    by_cases hidle : s.due now force = false ∨ s.refreshing = true
    · rw [maybeRefresh_of_not_due hidle]
      refine iff_of_true hfree fun hdue hclear => ?_
      rw [hdue, hclear] at hidle
      simp at hidle
    · simp only [not_or, Bool.not_eq_false, Bool.not_eq_true] at hidle
      obtain ⟨hdue, hclear⟩ := hidle
      obtain ⟨hworkers, hset⟩ := maybeRefresh_of_due hdue hclear
      have hrunning : (s.maybeRefresh now force).running = s.running + 1 := by
        unfold running
        rw [hworkers, List.countP_append]
        rfl
      have hiff : (s.maybeRefresh now force).RefreshFree ↔ s.running = 0 := by
        constructor
        · intro h
          have hle := h.running_le
          omega
        · intro h
          exact ⟨by omega, by omega⟩
      rw [hiff, running_eq_zero_iff_of_clear hflag hclear]
      exact ⟨fun h _ _ => h, fun h => h hdue hclear⟩
  | begin i =>
    refine iff_of_true ?_ trivial
    rcases step_begin pyStr s i with ⟨h, hstep⟩ | hsame
    · rw [hstep]
      have hrunning := running_setPlace (t := s.setPlace i (.fetching s.current)) h (by simp) rfl
      rw [if_neg (by simp)] at hrunning
      have hsame : (s.setPlace i (.fetching s.current)).running = s.running := by omega
      exact ⟨hsame ▸ hfree.running_le, fun hzero => hfree.clear (hsame ▸ hzero)⟩
    · rw [hsame]
      exact hfree
  | fetch i net time =>
    rcases step_fetch pyStr s i net time with ⟨fallback, h, hstep⟩ | ⟨hnone, hsame⟩
    · have hone := running_eq_one hfree h (by simp)
      have hset : s.refreshing = true := hflag _ (List.mem_of_getElem? h) rfl
      have horderly : Orderly s (.fetch i net time) ↔
          RepliesConvert net s.wallet s.rpcUrl s.rpcUrls :=
        ⟨fun horder => horder fallback h, fun hreplies _ _ => hreplies⟩
      rw [hstep, horderly]
      by_cases hescapes : Escapes
          (fetchWalletBalances pyStr net s.wallet s.rpcUrl s.rpcUrls fallback)
      · -- the thread is gone, and the flag stays
        rw [finish_of_escapes hescapes]
        refine iff_of_false ?_ (fetch_escapes_iff.mp hescapes)
        intro hfree'
        have hrunning := running_setPlace (t := s.setPlace i .ended) h (by simp) rfl
        rw [if_pos rfl] at hrunning
        have hclear : s.refreshing = false := hfree'.clear (by omega)
        rw [hset] at hclear
        cases hclear
      · obtain ⟨hclear, place', -, hworkers⟩ :=
          @finish_of_not_escapes s i time _ hescapes
        refine iff_of_true ⟨?_, fun _ => hclear⟩ (not_not.mp (mt fetch_escapes_iff.mpr hescapes))
        have hrunning := running_setPlace h (by simp) hworkers
        split_ifs at hrunning <;> omega
    · rw [hsame]
      exact iff_of_true hfree fun fallback h => absurd h (hnone fallback)
  | record i day capturedAt outcome =>
    refine iff_of_true ?_ trivial
    rcases step_record pyStr s i day capturedAt outcome with ⟨balances, h, hstep⟩ | hsame
    · rw [hstep]
      have hone := running_eq_one hfree h (by simp)
      have hrunning := running_setPlace
        (t := (s.recordSnapshot balances day capturedAt outcome).setPlace i .ended) h (by simp) rfl
      rw [if_pos rfl] at hrunning
      refine ⟨by omega, fun _ => ?_⟩
      -- the flag would have set another worker off
      by_contra hset
      have hset' : s.refreshing = true := eq_true_of_ne_false hset
      have htwo := haside _ (List.mem_of_getElem? h) balances rfl hset'
      omega
    · rw [hsame]
      exact hfree

/-- After the turn of the worker that runs, every other one has ended. -/
theorem eq_or_ended {t : Tracker} {w w' : RefreshPlace} (hfree : s.RefreshFree)
    (h : s.workers[i]? = some w) (hw : w ≠ .ended) (ht : t.workers = s.workers.set i place)
    (hmem : w' ∈ t.workers) : w' = place ∨ w' = .ended := by
  have hone := running_eq_one hfree h hw
  have hrunning := running_setPlace (t := s.setPlace i .ended) h hw rfl
  rw [if_pos rfl] at hrunning
  have hall := (running_eq_zero_iff (s := s.setPlace i .ended)).mp (by omega)
  rw [ht] at hmem
  obtain ⟨j, hj⟩ := List.mem_iff_getElem?.mp hmem
  rw [List.getElem?_set] at hj
  split_ifs at hj with hij hlen
  · exact Or.inl (Option.some.inj hj).symm
  · right
    refine hall w' (List.mem_iff_getElem?.mpr ⟨j, ?_⟩)
    show (s.workers.set i .ended)[j]? = some w'
    rw [List.getElem?_set_ne hij]
    exact hj

/-- A worker's turn keeps what ties the flag to the workers, if its new place does. -/
theorem tied_of_place {t : Tracker} {w : RefreshPlace} (hfree : s.RefreshFree)
    (h : s.workers[i]? = some w) (hw : w ≠ .ended) (ht : t.workers = s.workers.set i place)
    (hfetching : place.isFetching = true → t.refreshing = true)
    (hsaving : ∀ balances, place = .saving balances → t.refreshing = false) :
    t.FlagSet ∧ t.SavesAside := by
  constructor
  · intro w' hmem hw'
    rcases eq_or_ended hfree h hw ht hmem with rfl | rfl
    · exact hfetching hw'
    · cases hw'
  · intro w' hmem balances hsave hset
    rcases eq_or_ended hfree h hw ht hmem with rfl | rfl
    · rw [hsaving balances hsave] at hset
      cases hset
    · cases hsave

/-- What ties the flag to the workers, every turn keeps. -/
theorem tied_step (pyStr : Json → String) (s : Tracker) (turn : Turn) (hfree : s.RefreshFree)
    (hinv : s.FlagSet ∧ s.SavesAside) : (step pyStr s turn).FlagSet ∧ (step pyStr s turn).SavesAside := by
  have hflag := hinv.1
  cases turn with
  | refresh now force =>
    by_cases hidle : s.due now force = false ∨ s.refreshing = true
    · have hsame : step pyStr s (.refresh now force) = s := maybeRefresh_of_not_due hidle
      rw [hsame]
      exact hinv
    · simp only [not_or, Bool.not_eq_false, Bool.not_eq_true] at hidle
      obtain ⟨hworkers, hset⟩ := maybeRefresh_of_due hidle.1 hidle.2
      refine ⟨fun _ _ _ => hset, fun w hmem balances hsave _ => ?_⟩
      have hrunning : (s.maybeRefresh now force).running = s.running + 1 := by
        unfold running
        rw [hworkers, List.countP_append]
        rfl
      have hmem' : w ∈ (s.maybeRefresh now force).workers := hmem
      rw [hworkers, List.mem_append, List.mem_singleton] at hmem'
      rcases hmem' with hold | rfl
      · have hpos := running_pos hold (by rw [hsave]; simp)
        show 2 ≤ (s.maybeRefresh now force).running
        omega
      · cases hsave
  | begin i =>
    rcases step_begin pyStr s i with ⟨h, hstep⟩ | hsame
    · have hset : s.refreshing = true := hflag _ (List.mem_of_getElem? h) rfl
      rw [hstep]
      exact tied_of_place hfree h (by simp) rfl (fun _ => hset) fun _ hsave => by cases hsave
    · rw [hsame]
      exact hinv
  | fetch i net time =>
    rcases step_fetch pyStr s i net time with ⟨fallback, h, hstep⟩ | ⟨-, hsame⟩
    · rw [hstep]
      by_cases hescapes : Escapes (fetchWalletBalances pyStr net s.wallet s.rpcUrl s.rpcUrls fallback)
      · rw [finish_of_escapes hescapes]
        exact tied_of_place hfree h (by simp) rfl (fun hw => by cases hw) fun _ hsave => by cases hsave
      · obtain ⟨hclear, place', hplace', hworkers⟩ :=
          @finish_of_not_escapes s i time _ hescapes
        refine tied_of_place hfree h (by simp) hworkers (fun hw => ?_) fun _ _ => hclear
        rw [hplace'] at hw
        cases hw
    · rw [hsame]
      exact hinv
  | record i day capturedAt outcome =>
    rcases step_record pyStr s i day capturedAt outcome with ⟨balances, h, hstep⟩ | hsame
    · rw [hstep]
      have hplaced : ((s.recordSnapshot balances day capturedAt outcome).setPlace i .ended).workers =
        s.workers.set i .ended := rfl
      exact tied_of_place hfree h (by simp) hplaced (fun hw => by cases hw) fun _ hsave => by cases hsave
    · rw [hsame]
      exact hinv

/-- **Refreshes can go on in these runs**: in every state of a run at most one worker runs, and the flag
is clear once none does, exactly if no refresh is due while a worker saves a snapshot and every fetch
gets answers that can be converted. -/
theorem refreshFree_iff (pyStr : Json → String) (s : Tracker) (hworkers : s.workers = [])
    (hclear : s.refreshing = false) (turns : List Turn) :
    (∀ n, (Run.final (step pyStr) s (turns.take n)).RefreshFree) ↔
      Run.Meets (step pyStr) Orderly s turns := by
  have hfree : s.RefreshFree := by
    refine ⟨?_, fun _ => hclear⟩
    unfold running
    rw [hworkers]
    exact Nat.zero_le 1
  have hnone : ∀ place, place ∉ s.workers := by
    intro place h
    rw [hworkers] at h
    cases h
  have htied : s.FlagSet ∧ s.SavesAside :=
    ⟨fun place h => absurd h (hnone place), fun place h => absurd h (hnone place)⟩
  exact (Run.meets_iff_forall_take_of (J := fun s => s.FlagSet ∧ s.SavesAside)
    (fun s turn hfree htied _ => tied_step pyStr s turn hfree htied) (refreshFree_step_iff pyStr) hfree
    htied).symm

/-- A tracker of a wallet, at its start. -/
def sampleTracker : Tracker where
  wallet := "0xab"
  rpcUrl := ""
  rpcUrls := []
  refreshIntervalS := 300

/-- Every endpoint answers with the same result. -/
def constantNet (result : Json) : Net := fun _ _ _ _ => .ok (.obj [("result", result)])

/-- No endpoint answers. -/
def downNet : Net := fun _ _ _ _ => .error { kind := .osError, text := "timed out" }

/-- One wei of each token. -/
def oneWei : TokenBalances where
  xnm := .finite (((1 : ℤ) : ℚ) / (weiPerToken : ℚ))
  xuni := .finite (((1 : ℤ) : ℚ) / (weiPerToken : ℚ))
  xblk := .finite (((1 : ℤ) : ℚ) / (weiPerToken : ℚ))

theorem tokens_one : tokens (.str "0x1") = .ok (.finite (((1 : ℤ) : ℚ) / (weiPerToken : ℚ))) := by
  have hfits : PyFloat.Fits (((1 : ℤ) : ℚ) / (weiPerToken : ℚ)) := by
    refine PyFloat.fits_of_le_one ?_
    unfold weiPerToken
    norm_num
  have hwei : parseHex "0x1" = some 1 := by decide
  rw [tokens_of_some hwei, if_pos hfits]

theorem normalizeRpcUrls_nil : normalizeRpcUrls "" [] = defaultRpcUrls := by decide

theorem fetch_one (pyStr : Json → String) :
    fetchWalletBalances pyStr (constantNet (.str "0x1")) "0xab" "" [] none = .ok (oneWei, []) := by
  have hbalance : ∀ q : Query, balanceOf pyStr (constantNet (.str "0x1")) (normalizeRpcUrls "" []) q
      = .ok (.finite (((1 : ℤ) : ℚ) / (weiPerToken : ℚ))) := by
    intro q
    rw [normalizeRpcUrls_nil, ← tokens_one]
    exact balanceOf_of_answer rfl
  exact fetch_eq_ok_nil_iff.mpr
    ⟨hbalance (nativeQuery "0xab"), hbalance (erc20Query xuniContract "0xab"),
      hbalance (erc20Query xblkContract "0xab")⟩

/-- A forced refresh, up to the end of its fetch. -/
def oneFetch (net : Net) : List Turn := [.refresh 0 true, .begin 0, .fetch 0 net 1]

/-- The sample tracker while it fetches. -/
def fetchingTracker : Tracker :=
  { sampleTracker with
    refreshing := true
    lastAttemptAt := some 0
    status := "fetching"
    workers := [.fetching none] }

theorem final_oneFetch (pyStr : Json → String) (net : Net) :
    Run.final (step pyStr) sampleTracker (oneFetch net) =
      fetchingTracker.finish 0 1 (fetchWalletBalances pyStr net "0xab" "" [] none) := by
  have hbegin : Run.final (step pyStr) sampleTracker [.refresh 0 true, .begin 0] = fetchingTracker := rfl
  have hsplit : oneFetch net = [.refresh 0 true, .begin 0] ++ [.fetch 0 net 1] := rfl
  rw [hsplit, Run.final_append, hbegin]
  rcases step_fetch pyStr fetchingTracker 0 net 1 with ⟨fallback, hplace, hstep⟩ | ⟨hnone, -⟩
  · have hfallback : none = fallback := RefreshPlace.fetching.inj (Option.some.inj hplace)
    rw [← hfallback] at hstep
    exact hstep
  · exact absurd rfl (hnone none)

theorem not_repliesConvert_number :
    ¬ RepliesConvert (constantNet (.int 5)) "0xab" "" [] := by
  intro h
  have hconvert := h (nativeQuery "0xab") List.mem_cons_self (.int 5)
  rw [normalizeRpcUrls_nil] at hconvert
  obtain ⟨s, hs, -⟩ := hconvert rfl
  cases hs

/-- A number as the result leaves the flag set for good, and a refresh that is due while the last one
saves its snapshot runs beside it. -/
theorem refreshFree_fails :
    (∀ pyStr, let s := Run.final (step pyStr) sampleTracker (oneFetch (constantNet (.int 5)))
      s.running = 0 ∧ ∀ now force, step pyStr s (.refresh now force) = s ∧ s.refreshing = true) ∧
    ∀ pyStr, (Run.final (step pyStr) sampleTracker
      (oneFetch (constantNet (.str "0x1")) ++ [Turn.refresh 2 true])).running = 2 := by
  refine ⟨fun pyStr => ?_, fun pyStr => ?_⟩
  · dsimp only
    rw [final_oneFetch, finish_of_escapes (fetch_escapes_iff.mpr not_repliesConvert_number)]
    exact ⟨rfl, fun now force => ⟨maybeRefresh_of_not_due (Or.inr rfl), rfl⟩⟩
  · rw [Run.final_append, final_oneFetch, fetch_one]
    rfl

/-- Endpoints that are down leave the way free for the next refresh. -/
theorem refreshFree_down : Run.Meets (step fun _ => "") Orderly sampleTracker (oneFetch downNet) ∧
    ∀ n, (Run.final (step fun _ => "") sampleTracker ((oneFetch downNet).take n)).RefreshFree := by
  have hnone : ∀ urls method params, firstAnswer downNet urls method params = none := by
    intro urls method params
    unfold firstAnswer
    rw [List.findSome?_eq_none_iff]
    exact fun _ _ => rfl
  have hreplies : ∀ wallet rpcUrl rpcUrls, RepliesConvert downNet wallet rpcUrl rpcUrls := by
    intro wallet rpcUrl rpcUrls q _ raw hraw
    rw [hnone] at hraw
    cases hraw
  have horderly : Run.Meets (step fun _ => "") Orderly sampleTracker (oneFetch downNet) := by
    refine ⟨?_, trivial, fun _ _ => hreplies _ _ _, trivial⟩
    intro _ _ place hplace
    cases hplace
  exact ⟨horderly, (refreshFree_iff (fun _ => "") sampleTracker rfl rfl _).mpr horderly⟩

/-! ### What the history holds -/

/-- A snapshot of the values that one fetch of the run got for all three tokens. -/
def Recorded (pyStr : Json → String) (s : Tracker) (turns : List Turn) (x : String × Entry) : Prop :=
  ∃ i net time balances capturedAt, Turn.fetch i net time ∈ turns ∧
    FreshBalances pyStr net s.wallet s.rpcUrl s.rpcUrls balances ∧ x.2 = .snapshot balances capturedAt

/-- An entry of the history at the start, or of its file. -/
def Kept (s : Tracker) (x : String × Entry) : Prop :=
  x ∈ s.history ∨ ∃ saved ∈ s.savedHistory, x ∈ saved

/-- What is to be saved is fresh, and all other entries were there at the start or have been fresh. -/
structure Provenance (pyStr : Json → String) (s₀ : Tracker) (turns : List Turn) (s : Tracker) :
    Prop where
  wallet : s.wallet = s₀.wallet
  rpcUrl : s.rpcUrl = s₀.rpcUrl
  rpcUrls : s.rpcUrls = s₀.rpcUrls
  saving : ∀ i balances, s.workers[i]? = some (.saving balances) → ∃ net time,
    Turn.fetch i net time ∈ turns ∧ FreshBalances pyStr net s₀.wallet s₀.rpcUrl s₀.rpcUrls balances
  history : ∀ x ∈ s.history, Kept s₀ x ∨ Recorded pyStr s₀ turns x
  file : ∀ saved ∈ s.savedHistory, ∀ x ∈ saved, Kept s₀ x ∨ Recorded pyStr s₀ turns x

variable {pyStr : Json → String} {s₀ : Tracker} {turns : List Turn}

/-- A new place that saves nothing. -/
theorem saving_of_set {j : ℕ} {balances : TokenBalances} (hplace : ∀ b, place ≠ .saving b)
    (h : (s.workers.set i place)[j]? = some (.saving balances)) :
    s.workers[j]? = some (.saving balances) := by
  rw [List.getElem?_set] at h
  split_ifs at h with hij hlen
  · exact absurd (Option.some.inj h) (hplace balances)
  · exact h

/-- The place after a fetch: only a fresh one is saved. -/
theorem finish_saving {time : ℚ} {result : Except PyExc (TokenBalances × List String)} {j : ℕ}
    {balances : TokenBalances}
    (h : (s.finish i time result).workers[j]? = some (.saving balances)) :
    s.workers[j]? = some (.saving balances) ∨ j = i ∧ result = .ok (balances, []) := by
  cases result with
  | error e =>
    have hworkers : (s.finish i time (.error e)).workers = s.workers.set i .ended := by
      unfold finish
      dsimp only
      split_ifs <;> rfl
    rw [hworkers] at h
    exact Or.inl (saving_of_set (fun _ => RefreshPlace.noConfusion) h)
  | ok x =>
    have hworkers : (s.finish i time (.ok x)).workers
        = s.workers.set i (if x.2 = [] then .saving x.1 else .ended) := rfl
    rw [hworkers] at h
    by_cases hfresh : x.2 = []
    · rw [if_pos hfresh, List.getElem?_set] at h
      split_ifs at h with hij hlen
      · right
        rw [← RefreshPlace.saving.inj (Option.some.inj h), ← hfresh]
        exact ⟨hij.symm, rfl⟩
      · exact Or.inl h
    · rw [if_neg hfresh] at h
      exact Or.inl (saving_of_set (fun _ => RefreshPlace.noConfusion) h)

/-- A fetch touches neither the history nor the settings. -/
theorem finish_frame (s : Tracker) (i : ℕ) (time : ℚ)
    (result : Except PyExc (TokenBalances × List String)) :
    (s.finish i time result).history = s.history ∧
      (s.finish i time result).savedHistory = s.savedHistory ∧
      (s.finish i time result).wallet = s.wallet ∧ (s.finish i time result).rpcUrl = s.rpcUrl ∧
      (s.finish i time result).rpcUrls = s.rpcUrls := by
  cases result with
  | ok x => exact ⟨rfl, rfl, rfl, rfl, rfl⟩
  | error e =>
    unfold finish
    dsimp only
    by_cases hcaught : caughtByFetch e.kind = true
    · rw [if_pos hcaught]
      exact ⟨rfl, rfl, rfl, rfl, rfl⟩
    · rw [if_neg hcaught]
      exact ⟨rfl, rfl, rfl, rfl, rfl⟩

theorem provenance_step (s : Tracker) (turn : Turn) (h : Provenance pyStr s₀ turns s)
    (hturn : turn ∈ turns) : Provenance pyStr s₀ turns (step pyStr s turn) := by
  cases turn with
  | refresh now force =>
    by_cases hidle : s.due now force = false ∨ s.refreshing = true
    · have hsame : step pyStr s (.refresh now force) = s := maybeRefresh_of_not_due hidle
      rw [hsame]
      exact h
    · have hstart : step pyStr s (.refresh now force) =
          { s with
            refreshing := true
            lastAttemptAt := some now
            status :=
              if s.current.isNone ∧ s.status ∈ ["waiting", "rpc error"] then "fetching" else s.status
            workers := s.workers ++ [.started] } := if_neg hidle
      rw [hstart]
      refine ⟨h.wallet, h.rpcUrl, h.rpcUrls, fun i balances hsaving => ?_, h.history, h.file⟩
      refine h.saving i balances ?_
      rcases List.getElem?_append.symm.trans hsaving with hget
      split_ifs at hget
      · exact hget
      · cases hi : i - s.workers.length with
        | zero =>
          rw [hi] at hget
          cases hget
        | succ n =>
          rw [hi] at hget
          cases hget
  | begin i =>
    rcases step_begin pyStr s i with ⟨-, hstep⟩ | hsame
    · rw [hstep]
      exact ⟨h.wallet, h.rpcUrl, h.rpcUrls, fun j balances hsaving => h.saving j balances
        (saving_of_set (fun _ => RefreshPlace.noConfusion) hsaving), h.history, h.file⟩
    · rw [hsame]
      exact h
  | fetch i net time =>
    rcases step_fetch pyStr s i net time with ⟨fallback, -, hstep⟩ | ⟨-, hsame⟩
    · obtain ⟨hhistory, hfile, hwallet, hurl, hurls⟩ := finish_frame s i time
        (fetchWalletBalances pyStr net s.wallet s.rpcUrl s.rpcUrls fallback)
      rw [hstep]
      refine ⟨hwallet.trans h.wallet, hurl.trans h.rpcUrl, hurls.trans h.rpcUrls, ?_,
        fun x hx => h.history x (hhistory ▸ hx), fun saved hsaved => h.file saved (hfile ▸ hsaved)⟩
      intro j balances hsaving
      rcases finish_saving hsaving with hold | ⟨rfl, hfetch⟩
      · exact h.saving j balances hold
      · -- the balances of this very fetch
        refine ⟨net, time, hturn, ?_⟩
        rw [← h.wallet, ← h.rpcUrl, ← h.rpcUrls]
        exact fetch_eq_ok_nil_iff.mp hfetch
    · rw [hsame]
      exact h
  | record i day capturedAt outcome =>
    rcases step_record pyStr s i day capturedAt outcome with ⟨balances, hplace, hstep⟩ | hsame
    · obtain ⟨net, time, hfetch, hfresh⟩ := h.saving i balances hplace
      have hnew : ∀ x ∈ PyDict.set day (.snapshot balances capturedAt) s.history,
          Kept s₀ x ∨ Recorded pyStr s₀ turns x := by
        intro x hx
        rcases PyDict.mem_set hx with rfl | hold
        · exact Or.inr ⟨i, net, time, balances, capturedAt, hfetch, hfresh, rfl⟩
        · exact h.history x hold
      rw [hstep]
      refine ⟨h.wallet, h.rpcUrl, h.rpcUrls, fun j b hsaving => h.saving j b
        (saving_of_set (fun _ => RefreshPlace.noConfusion) hsaving), hnew, ?_⟩
      intro saved hsaved
      cases outcome with
      | written =>
        rw [← Option.some.inj hsaved]
        exact hnew
      | untouched => exact h.file saved hsaved
      | torn => cases hsaved
    · rw [hsame]
      exact h

/-- **Only fresh balances enter the history**: after any refreshes, an entry of the history or of its
file was there at the start, or is a snapshot of what one fetch got for all three tokens. -/
theorem snapshot_fresh (pyStr : Json → String) (s : Tracker) (hworkers : s.workers = [])
    (turns : List Turn) :
    (∀ x ∈ (Run.final (step pyStr) s turns).history, Kept s x ∨ Recorded pyStr s turns x) ∧
      ∀ saved ∈ (Run.final (step pyStr) s turns).savedHistory, ∀ x ∈ saved,
        Kept s x ∨ Recorded pyStr s turns x := by
  have hstart : Provenance pyStr s turns s := by
    refine ⟨rfl, rfl, rfl, fun i balances hsaving => ?_, fun x hx => Or.inl (Or.inl hx),
      fun saved hsaved x hx => Or.inl (Or.inr ⟨saved, hsaved, hx⟩)⟩
    rw [hworkers] at hsaving
    cases hsaving
  have hmeets : Run.Meets (step pyStr) (fun _ turn => turn ∈ turns) s turns :=
    Run.Meets.of_mem fun _ hturn => hturn
  have hend := hmeets.invariant provenance_step hstart
  exact ⟨hend.history, hend.file⟩

/-- A refresh and its snapshot. -/
def oneSnapshot : List Turn :=
  oneFetch (constantNet (.str "0x1")) ++ [.record 0 "2026-01-01" "2026-01-01T12:00:00" .written]

/-- The history of a new tracker holds what its refreshes got. -/
theorem snapshot_fresh_sample :
    (Run.final (step fun _ => "") sampleTracker oneSnapshot).history ≠ [] ∧
      ∀ x ∈ (Run.final (step fun _ => "") sampleTracker oneSnapshot).history,
        Recorded (fun _ => "") sampleTracker oneSnapshot x := by
  constructor
  · rw [oneSnapshot, Run.final_append, final_oneFetch, fetch_one]
    exact List.cons_ne_nil _ _
  · intro x hx
    refine ((snapshot_fresh (fun _ => "") sampleTracker rfl oneSnapshot).1 x hx).resolve_left ?_
    rintro (h | ⟨saved, hsaved, -⟩)
    · cases h
    · cases hsaved

end Tracker

end XenMiner.WalletBalances
