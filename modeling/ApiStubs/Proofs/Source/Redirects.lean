import ApiStubs.Proofs.Source.Loaders

/-!
# Chains of redirects

A client that keeps its promises asks for the URLs of a chain of redirects, one after the other
(`getElem?_requested`), up to the first response that points nowhere or up to the limit. What comes of it
is decided by the last response alone (`endsAt_get`). Nothing is assumed of how a location is taken
against a URL.

* `Response.PointsTo`: the responses that send the reader on, and where to
* `hop`: the chain from a URL, as far as it goes
* `isSome_hop_of_cycle`: a chain that comes to a URL twice never ends
* `fetch_follows_redirects`: what is asked for, and what comes of it
-/

namespace ApiStubs.Source

variable {Url : Type} {client : Client Url} {resolve : Url → String → Url} {site : Site Url} {url : Url}

/-! ## Responses -/

/-- The response sends the reader on to a location. -/
def Response.PointsTo (r : Response) (location : String) : Prop :=
  (r.status = 301 ∨ r.status = 302 ∨ r.status = 303 ∨ r.status = 307 ∨ r.status = 308)
    ∧ r.location = some location

theorem contains_redirectStatuses {status : Nat} :
    redirectStatuses.contains status = true
      ↔ status = 301 ∨ status = 302 ∨ status = 303 ∨ status = 307 ∨ status = 308 := by
  simp [redirectStatuses]

theorem target?_eq_some_iff {r : Response} {location : String} :
    r.target? = some location ↔ r.PointsTo location := by
  unfold Response.target? Response.PointsTo
  rw [← contains_redirectStatuses]
  split
  · next h => simp only [h, true_and]
  · next h => simp only [h, false_and, reduceCtorEq]

theorem document_of_succeeded (hclient : client.Documented resolve) {r : Response} (h : r.Succeeded) :
    client.document r = loadBody r.body := by
  unfold Client.document
  rw [hclient.accepts r h]
  rfl

theorem document_of_not_succeeded (hclient : client.Documented resolve) {r : Response}
    (h : ¬ r.Succeeded) : client.document r = .error (.refused r.status) := by
  unfold Client.document
  rw [hclient.refuses r h]
  rfl

/-! ## The chain from a URL -/

/-- The URL that a response points to, taken against its own. -/
def next? (resolve : Url → String → Url) (site : Site Url) (url : Url) : Option Url :=
  (site url).target?.map (resolve url)

/-- The URL that some redirects lead to, if there are so many in a row. -/
def hop (resolve : Url → String → Url) (site : Site Url) (url : Url) : Nat → Option Url
  | 0 => some url
  | n + 1 => (hop resolve site url n).bind (next? resolve site)

theorem next?_eq_some_iff {target : Url} :
    next? resolve site url = some target
      ↔ ∃ location, (site url).PointsTo location ∧ target = resolve url location := by
  rw [next?, Option.map_eq_some_iff]
  simp only [target?_eq_some_iff]
  constructor
  · rintro ⟨location, hpoints, rfl⟩
    exact ⟨location, hpoints, rfl⟩
  · rintro ⟨location, hpoints, rfl⟩
    exact ⟨location, hpoints, rfl⟩

theorem isSome_next? :
    (next? resolve site url).isSome ↔ ∃ location, (site url).PointsTo location := by
  rw [next?, Option.isSome_map, Option.isSome_iff_exists]
  simp only [target?_eq_some_iff]

theorem not_pointsTo_of_next?_none (h : next? resolve site url = none) :
    ¬ ∃ location, (site url).PointsTo location := by
  intro hpoints
  have hmore : (next? resolve site url).isSome := isSome_next?.2 hpoints
  rw [h] at hmore
  cases hmore

theorem hop_add (resolve : Url → String → Url) (site : Site Url) (url : Url) (m n : Nat) :
    hop resolve site url (m + n) = (hop resolve site url m).bind fun target => hop resolve site target n := by
  induction n with
  | zero =>
    show hop resolve site url m = (hop resolve site url m).bind some
    cases hop resolve site url m with
    | none => rfl
    | some target => rfl
  | succ n ih =>
    show (hop resolve site url (m + n)).bind (next? resolve site) = _
    rw [ih]
    cases hop resolve site url m with
    | none => rfl
    | some target => rfl

theorem hop_succ (resolve : Url → String → Url) (site : Site Url) (url : Url) (n : Nat) :
    hop resolve site url (n + 1) = (next? resolve site url).bind fun target => hop resolve site target n := by
  rw [Nat.add_comm, hop_add]
  rfl

theorem isSome_hop_of_le {m n : Nat} (hmn : m ≤ n) (h : (hop resolve site url n).isSome) :
    (hop resolve site url m).isSome := by
  obtain ⟨k, rfl⟩ := Nat.exists_eq_add_of_le hmn
  rw [hop_add] at h
  cases hm : hop resolve site url m with
  | none =>
    rw [hm] at h
    cases h
  | some target => rfl

/-- A chain that comes to a URL twice never ends: as far as it goes, it goes on by the redirects that
lie between the two. -/
theorem isSome_hop_of_cycle {i j : Nat} {target : Url} (hij : i < j)
    (hi : hop resolve site url i = some target) (hj : hop resolve site url j = some target) (n : Nat) :
    (hop resolve site url n).isSome := by
  induction n using Nat.strongRecOn with
  | _ n ih =>
    by_cases hn : n ≤ j
    · apply isSome_hop_of_le hn
      rw [hj]
      rfl
    · -- the step from `j` to `n` is the same as from `i`
      have hsame : hop resolve site url n = hop resolve site url (i + (n - j)) := by
        have hsplit : n = j + (n - j) := by omega
        conv_lhs => rw [hsplit]
        rw [hop_add, hop_add, hi, hj]
      rw [hsame]
      apply ih
      omega

/-! ## Exchanges -/

section

variable {limit : Nat}

theorem get_of_next?_none (hclient : client.Documented resolve) (h : next? resolve site url = none) :
    client.get site limit url = ⟨[url], .ok (site url)⟩ :=
  hclient.get_of_none _ _ _ (Option.map_eq_none_iff.1 h)

theorem get_zero_of_next? (hclient : client.Documented resolve) {target : Url}
    (h : next? resolve site url = some target) :
    client.get site 0 url = ⟨[url], .error .tooManyRedirects⟩ := by
  obtain ⟨location, hlocation, -⟩ := Option.map_eq_some_iff.1 h
  exact hclient.get_zero _ _ _ hlocation

theorem get_succ_of_next? (hclient : client.Documented resolve) {target : Url}
    (h : next? resolve site url = some target) :
    client.get site (limit + 1) url = (client.get site limit target).after url := by
  obtain ⟨location, hlocation, rfl⟩ := Option.map_eq_some_iff.1 h
  exact hclient.get_succ _ _ _ _ hlocation

/-- The URLs asked for are those of the chain, as far as the limit lets it go. -/
theorem getElem?_requested (hclient : client.Documented resolve) (limit : Nat) (url : Url) (i : Nat) :
    (client.get site limit url).requested[i]?
      = if i ≤ limit then hop resolve site url i else none := by
  induction limit generalizing url i with
  | zero =>
    have hone : (client.get site 0 url).requested = [url] := by
      cases hnext : next? resolve site url with
      | none => rw [get_of_next?_none hclient hnext]
      | some target => rw [get_zero_of_next? hclient hnext]
    rw [hone]
    cases i with
    | zero => rfl
    | succ i => rfl
  | succ limit ih =>
    cases hnext : next? resolve site url with
    | none =>
      rw [get_of_next?_none hclient hnext]
      cases i with
      | zero => rfl
      | succ i =>
        rw [hop_succ, hnext, Option.bind_none, ite_self]
        rfl
    | some target =>
      rw [get_succ_of_next? hclient hnext, Exchange.after]
      cases i with
      | zero => rfl
      | succ i =>
        rw [List.getElem?_cons_succ, ih, hop_succ, hnext, Option.bind_some]
        simp only [Nat.add_le_add_iff_right]

/-- How an exchange ends at the last URL that it asks for. -/
def EndsAt (resolve : Url → String → Url) (site : Site Url) (limit : Nat) (e : Exchange Url)
    (last : Url) : Prop :=
  (e.requested.length = limit + 1 ∧ (next? resolve site last).isSome
      ∧ e.answer = .error .tooManyRedirects)
    ∨ (next? resolve site last = none ∧ e.answer = .ok (site last))

theorem endsAt_get (hclient : client.Documented resolve) (site : Site Url) (limit : Nat) (url : Url) :
    ∃ last, (client.get site limit url).requested.getLast? = some last
      ∧ EndsAt resolve site limit (client.get site limit url) last := by
  induction limit generalizing url with
  | zero =>
    cases hnext : next? resolve site url with
    | none =>
      rw [get_of_next?_none hclient hnext]
      exact ⟨url, rfl, .inr ⟨hnext, rfl⟩⟩
    | some target =>
      rw [get_zero_of_next? hclient hnext]
      exact ⟨url, rfl, .inl ⟨rfl, by rw [hnext]; rfl, rfl⟩⟩
  | succ limit ih =>
    cases hnext : next? resolve site url with
    | none =>
      rw [get_of_next?_none hclient hnext]
      exact ⟨url, rfl, .inr ⟨hnext, rfl⟩⟩
    | some target =>
      obtain ⟨last, hlast, hends⟩ := ih target
      rw [get_succ_of_next? hclient hnext, Exchange.after]
      refine ⟨last, ?_, ?_⟩
      · rw [List.getLast?_cons, hlast]
        rfl
      · rcases hends with ⟨hlength, hmore, hanswer⟩ | hdone
        · exact .inl ⟨by rw [List.length_cons, hlength], hmore, hanswer⟩
        · exact .inr hdone

theorem length_requested_le (hclient : client.Documented resolve) (site : Site Url) (limit : Nat)
    (url : Url) : (client.get site limit url).requested.length ≤ limit + 1 := by
  have hbeyond : (client.get site limit url).requested[limit + 1]? = none := by
    rw [getElem?_requested hclient, if_neg (by omega)]
  exact List.getElem?_eq_none_iff.1 hbeyond

end

/-! ## Transfers -/

/-- What a reader may know of a transfer from a URL. -/
structure FollowsRedirects (resolve : Url → String → Url) (site : Site Url) (url : Url)
    (t : Transfer Url) : Prop where
  starts : t.requested.head? = some url
  bounded : 1 ≤ t.requested.length ∧ t.requested.length ≤ 21
  linked : ∀ i u v, t.requested[i]? = some u → t.requested[i + 1]? = some v →
    ∃ location, (site u).PointsTo location ∧ v = resolve u location
  ended : ∃ last, t.requested.getLast? = some last
    ∧ (t.outcome = .error .tooManyRedirects
        ↔ t.requested.length = 21 ∧ ∃ location, (site last).PointsTo location)
    ∧ (t.outcome ≠ .error .tooManyRedirects → (¬ ∃ location, (site last).PointsTo location)
        ∧ ((∃ status, t.outcome = .error (.refused status)) ↔ ¬ (site last).Succeeded)
        ∧ (¬ (site last).Succeeded → t.outcome = .error (.refused (site last).status))
        ∧ ((site last).Succeeded → t.outcome = loadBody (site last).body))
    ∧ ∀ v, t.outcome = .ok v → (site last).Succeeded ∧ loadBody (site last).body = .ok v
  cyclic : ∀ i j u, i < j → hop resolve site url i = some u → hop resolve site url j = some u →
    t.outcome = .error .tooManyRedirects ∧ t.requested.length = 21

/-- How a transfer ends at the last URL that it asks for. -/
def ComesTo (client : Client Url) (resolve : Url → String → Url) (site : Site Url) (t : Transfer Url)
    (last : Url) : Prop :=
  (t.requested.length = 21 ∧ (next? resolve site last).isSome
      ∧ t.outcome = .error .tooManyRedirects)
    ∨ (next? resolve site last = none ∧ t.outcome = client.document (site last))

theorem comesTo_fetch (hclient : client.Documented resolve) (site : Site Url) (url : Url) :
    ∃ last, (fetch client site url).requested.getLast? = some last
      ∧ ComesTo client resolve site (fetch client site url) last := by
  obtain ⟨last, hlast, hends⟩ := endsAt_get hclient site client.maxRedirects url
  refine ⟨last, hlast, ?_⟩
  unfold ComesTo
  rw [outcome_fetch, requested_fetch]
  rcases hends with ⟨hlength, hmore, hanswer⟩ | ⟨hnone, hanswer⟩
  · rw [hanswer, hlength, hclient.limit]
    exact .inl ⟨rfl, hmore, rfl⟩
  · rw [hanswer]
    exact .inr ⟨hnone, rfl⟩

theorem tooManyRedirects_of_comesTo (hclient : client.Documented resolve) {t : Transfer Url}
    {last : Url} (h : ComesTo client resolve site t last) :
    t.outcome = .error .tooManyRedirects
      ↔ t.requested.length = 21 ∧ ∃ location, (site last).PointsTo location := by
  rcases h with ⟨hlength, hmore, houtcome⟩ | ⟨hnone, houtcome⟩
  · exact ⟨fun _ => ⟨hlength, isSome_next?.1 hmore⟩, fun _ => houtcome⟩
  · constructor
    · intro herror
      rw [houtcome] at herror
      by_cases hsucceeded : (site last).Succeeded
      · rw [document_of_succeeded hclient hsucceeded] at herror
        rcases fault_of_loadBody herror with hfault | hfault <;> cases hfault
      · rw [document_of_not_succeeded hclient hsucceeded] at herror
        cases herror
    · rintro ⟨-, hpoints⟩
      exact absurd hpoints (not_pointsTo_of_next?_none hnone)

theorem outcome_of_comesTo (hclient : client.Documented resolve) {t : Transfer Url} {last : Url}
    (h : ComesTo client resolve site t last) (hfew : t.outcome ≠ .error .tooManyRedirects) :
    (¬ ∃ location, (site last).PointsTo location)
      ∧ ((∃ status, t.outcome = .error (.refused status)) ↔ ¬ (site last).Succeeded)
      ∧ (¬ (site last).Succeeded → t.outcome = .error (.refused (site last).status))
      ∧ ((site last).Succeeded → t.outcome = loadBody (site last).body) := by
  rcases h with ⟨-, -, houtcome⟩ | ⟨hnone, houtcome⟩
  · exact absurd houtcome hfew
  · rw [houtcome]
    refine ⟨not_pointsTo_of_next?_none hnone, ?_, document_of_not_succeeded hclient,
      document_of_succeeded hclient⟩
    constructor
    · rintro ⟨status, hrefused⟩ hsucceeded
      rw [document_of_succeeded hclient hsucceeded] at hrefused
      rcases fault_of_loadBody hrefused with hfault | hfault <;> cases hfault
    · intro hsucceeded
      exact ⟨_, document_of_not_succeeded hclient hsucceeded⟩

theorem succeeded_of_comesTo (hclient : client.Documented resolve) {t : Transfer Url} {last : Url}
    {v : Value} (h : ComesTo client resolve site t last) (hv : t.outcome = .ok v) :
    (site last).Succeeded ∧ loadBody (site last).body = .ok v := by
  have hfew : t.outcome ≠ .error .tooManyRedirects := by
    rw [hv]
    nofun
  obtain ⟨-, -, hrefused, hloaded⟩ := outcome_of_comesTo hclient h hfew
  by_cases hsucceeded : (site last).Succeeded
  · exact ⟨hsucceeded, (hloaded hsucceeded).symm.trans hv⟩
  · cases (hrefused hsucceeded).symm.trans hv

theorem getElem?_fetch (hclient : client.Documented resolve) (site : Site Url) (url : Url) (i : Nat) :
    (fetch client site url).requested[i]? = if i ≤ 20 then hop resolve site url i else none := by
  rw [requested_fetch, getElem?_requested hclient, hclient.limit]

theorem length_fetch_le (hclient : client.Documented resolve) (site : Site Url) (url : Url) :
    (fetch client site url).requested.length ≤ 21 := by
  have h := length_requested_le hclient site client.maxRedirects url
  have hlimit : client.maxRedirects + 1 = 21 := by rw [hclient.limit]
  rwa [hlimit] at h

theorem length_of_isSome_hop (hclient : client.Documented resolve)
    (h : (hop resolve site url 20).isSome) : (fetch client site url).requested.length = 21 := by
  have hbound := length_fetch_le hclient site url
  have hlast : (fetch client site url).requested[20]?.isSome := by
    rw [getElem?_fetch hclient, if_pos (le_refl 20)]
    exact h
  have hlong : 20 < (fetch client site url).requested.length := by
    by_contra hshort
    rw [List.getElem?_eq_none (by omega)] at hlast
    cases hlast
  omega

/-- A transfer asks for the URLs of the chain of redirects, at most 21 of them, and ends in the way that
the last response says. -/
theorem fetch_follows_redirects (hclient : client.Documented resolve) (site : Site Url) (url : Url) :
    FollowsRedirects resolve site url (fetch client site url) := by
  obtain ⟨last, hlast, hends⟩ := comesTo_fetch hclient site url
  have hfirst : (fetch client site url).requested[0]? = some url := by
    rw [getElem?_fetch hclient, if_pos (Nat.zero_le 20), hop]
  refine {
    starts := ?_
    bounded := ⟨?_, length_fetch_le hclient site url⟩
    linked := ?_
    ended := ⟨last, hlast, tooManyRedirects_of_comesTo hclient hends,
      outcome_of_comesTo hclient hends, fun v => succeeded_of_comesTo hclient hends⟩
    cyclic := ?_ }
  · rw [List.head?_eq_getElem?]
    exact hfirst
  · by_contra hempty
    rw [List.getElem?_eq_none (by omega)] at hfirst
    cases hfirst
  · intro i u v hu hv
    rw [getElem?_fetch hclient] at hu hv
    split at hv
    · next hi =>
      rw [if_pos (by omega)] at hu
      rw [hop, hu, Option.bind_some] at hv
      exact next?_eq_some_iff.1 hv
    · cases hv
  · intro i j u hij hi hj
    have hlong : (fetch client site url).requested.length = 21 :=
      length_of_isSome_hop hclient (isSome_hop_of_cycle hij hi hj 20)
    -- the last URL is the 21st of the chain, and the chain goes on from it
    have hmore : (hop resolve site url 21).isSome := isSome_hop_of_cycle hij hi hj 21
    have hat : hop resolve site url 20 = some last := by
      have h20 : (fetch client site url).requested[20]? = some last := by
        rw [← hlast, List.getLast?_eq_getElem?]
        show _ = (fetch client site url).requested[(fetch client site url).requested.length - 1]?
        rw [hlong]
      rwa [getElem?_fetch hclient, if_pos (le_refl 20)] at h20
    rw [hop, hat, Option.bind_some] at hmore
    exact ⟨(tooManyRedirects_of_comesTo hclient hends).2 ⟨hlong, isSome_next?.1 hmore⟩, hlong⟩

/-- Two URLs that send the reader to each other, one of them by a relative location. -/
def pingPong : Site String := fun url =>
  if url = "http://example.com/ping" then ⟨301, some "pong", []⟩
  else ⟨302, some "http://example.com/ping", []⟩

theorem fetch_pingPong :
    (textClient beside).Documented beside
      ∧ hop beside pingPong "http://example.com/ping" 1 = some "http://example.com/pong"
      ∧ hop beside pingPong "http://example.com/ping" 2 = some "http://example.com/ping"
      ∧ (fetch (textClient beside) pingPong "http://example.com/ping").outcome
        = .error .tooManyRedirects
      ∧ (fetch (textClient beside) pingPong "http://example.com/ping").requested.length = 21 := by
  have hclient := documented_textClient beside
  have hthere : hop beside pingPong "http://example.com/ping" 1 = some "http://example.com/pong" := by
    decide +kernel
  have hagain : hop beside pingPong "http://example.com/ping" 2 = some "http://example.com/ping" := by
    decide +kernel
  have hfetch := fetch_follows_redirects hclient pingPong "http://example.com/ping"
  exact ⟨hclient, hthere, hagain, hfetch.cyclic 0 2 _ (by decide) rfl hagain⟩

end ApiStubs.Source
