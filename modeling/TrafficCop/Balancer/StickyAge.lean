import TrafficCop.Balancer.Sticky
import TrafficCop.Lib.Timed

/-!
# How long sticky sessions last

Runs of `create_session` and `get_sticky_server`, a call at an instant each. The clean-up cannot be
seen in a run.
-/

namespace TrafficCop

open Rust Http Timed List Option

namespace StickySessionManager

variable {m : StickySessionManager} {headers : HeaderMap}

inductive Call where
  | createSession (serverIndex timestamp thread : ℕ)
  | getStickyServer (headers : HeaderMap)

inductive Reply where
  | session (id : Option Text)
  | server (index : Option ℕ)
  deriving Repr, DecidableEq

def Reply.id? : Reply → Option Text
  | session id => id
  | server _ => none

variable (m) in
def answer (s : StickySessions) (now : ℕ) : Call → StickySessions × Reply
  | .createSession serverIndex timestamp thread =>
    let r := m.createSession s now serverIndex timestamp thread
    (r.1, .session r.2)
  | .getStickyServer headers => (s, .server (m.getStickyServer s now headers))

variable (m) in
/-- The calls of a run, with their answers. -/
def log (inputs : List (ℕ × Call)) : List (Event Call Reply) :=
  (operate m.answer start inputs).log

/-- "maxAge", in seconds. -/
def maxAgeSecs (cookieConfig : StickyCookie) : ℤ :=
  (cookieConfig.maxAge.map Int64.toInt).getD 86400

variable (m) in
/-- A session is resolved to its server as long as the cookie is valid. -/
def Lasting (inputs : List (ℕ × Call)) : Prop :=
  ∀ (earlier mid later : List (Event Call Reply)) (t now index timestamp thread : ℕ) (id : Text)
      (headers : HeaderMap) (reply : Reply),
    m.log inputs = earlier ++ ⟨t, .createSession index timestamp thread, .session (some id)⟩ ::
        (mid ++ ⟨now, .getStickyServer headers, reply⟩ :: later) →
      m.extractSessionCookie headers = some id →
      (now : ℤ) < t + fromSecs 1 * maxAgeSecs m.cookieConfig → reply = .server (some index)

/-! ## What becomes of a session -/

variable {s : StickySessions} {now t : ℕ} {id url : Text}

variable (m) in
/-- The URL that the cache gives for an id. -/
def shown (s : StickySessions) (id : Text) (t : ℕ) : Option Text :=
  (s.localCache.get id).bind fun entry =>
    if t - entry.cachedAt < m.localCacheTtl then some entry.serverUrl else none

lemma sessionServer_eq : m.sessionServer s now id = (m.shown s id now).bind m.findServerIndex := by
  rw [sessionServer, shown]
  cases s.localCache.get id with
  | none => rfl
  | some entry => by_cases hfresh : now - entry.cachedAt < m.localCacheTtl <;> simp [hfresh]

lemma shown_maybeCleanup (hle : now ≤ t) :
    m.shown (m.maybeCleanup s now) id t = m.shown s id t := by
  rw [maybeCleanup]
  split
  · rfl
  · rw [shown, shown, HashMap.get_retain]
    cases s.localCache.get id with
    | none => rfl
    | some entry =>
      by_cases hfresh : now - entry.cachedAt < m.localCacheTtl
      · simp [Option.filter, hfresh]
      · have hlater : ¬t - entry.cachedAt < m.localCacheTtl := by omega
        simp [Option.filter, hfresh, hlater]

variable {serverIndex timestamp thread index : ℕ} {c : Clocked StickySessions Call Reply}
  {server : Server} {inputs : List (ℕ × Call)} {earlier mid later : List (Event Call Reply)}

lemma createSession_of_server (hserver : m.servers[serverIndex]? = some server) :
    (m.createSession s now serverIndex timestamp thread).2 =
        some (generateSessionId timestamp (s.threads thread)).1 ∧
      ∀ id t, now ≤ t → m.shown (m.createSession s now serverIndex timestamp thread).1 id t =
        if id = (generateSessionId timestamp (s.threads thread)).1 then
          if t - now < m.localCacheTtl then some server.url else none
        else m.shown s id t := by
  rw [createSession, hserver]
  refine ⟨rfl, fun id t hle => (shown_maybeCleanup hle).trans ?_⟩
  rw [shown, HashMap.get_insert]
  split <;> rfl

lemma createSession_of_none (hserver : m.servers[serverIndex]? = none) :
    m.createSession s now serverIndex timestamp thread = (s, none) := by
  rw [createSession, hserver]

variable (m) in
/-- From now on, a lookup of the id before `t + localCacheTtl` finds the URL. -/
def Held (id url : Text) (t : ℕ) (c : Clocked StickySessions Call Reply) : Prop :=
  t ≤ c.now ∧
    ∀ later, c.now ≤ later → later < t + m.localCacheTtl → m.shown c.state id later = some url

lemma held_created (hle : t ≤ now)
    (hid : (m.createSession c.state now serverIndex timestamp thread).2 = some id)
    (hserver : m.servers[serverIndex]? = some server) :
    m.Held id server.url t
      (tick m.answer c (now, .createSession serverIndex timestamp thread)) := by
  obtain ⟨hcreated, hshown⟩ := createSession_of_server hserver
  refine ⟨hle, fun later (hlater : now ≤ later) hlt => (hshown id later hlater).trans ?_⟩
  rw [if_pos (Option.some.inj (hid.symm.trans hcreated)), if_pos (by omega)]

lemma held_tick {x : ℕ × Call} (h : m.Held id url t c) (hle : c.now ≤ x.1)
    (hsame : ∀ serverIndex timestamp thread server,
      x.2 = .createSession serverIndex timestamp thread →
      (m.answer c.state x.1 x.2).2 = .session (some id) →
      m.servers[serverIndex]? = some server → server.url = url) :
    m.Held id url t (tick m.answer c x) := by
  obtain ⟨now, call⟩ := x
  have hbefore : ∀ later, now ≤ later → later < t + m.localCacheTtl →
      m.shown c.state id later = some url := fun later hlater => h.2 later (hle.trans hlater)
  cases call with
  | getStickyServer headers => exact ⟨h.1.trans hle, hbefore⟩
  | createSession serverIndex timestamp thread =>
    cases hserver : m.servers[serverIndex]? with
    | none =>
      refine ⟨h.1.trans hle, fun later hlater hlt => ?_⟩
      show m.shown (m.createSession c.state now serverIndex timestamp thread).1 id later = _
      rw [createSession_of_none hserver, hbefore later hlater hlt]
    | some server =>
      obtain ⟨hcreated, hshown⟩ := createSession_of_server hserver
      by_cases hid : (m.createSession c.state now serverIndex timestamp thread).2 = some id
      · rw [← hsame _ _ _ server rfl (congrArg Reply.session hid) hserver]
        exact held_created (h.1.trans hle) hid hserver
      · refine ⟨h.1.trans hle, fun later (hlater : now ≤ later) hlt =>
          (hshown id later hlater).trans ?_⟩
        rw [if_neg (by rintro rfl; exact hid hcreated), hbefore later hlater hlt]

lemma answer_of_held (h : m.Held id url t c) (hle : c.now ≤ now) (hlt : now < t + m.localCacheTtl)
    (hcookie : m.extractSessionCookie headers = some id) :
    (m.answer c.state now (.getStickyServer headers)).2 = .server (m.findServerIndex url) := by
  show Reply.server (m.getStickyServer c.state now headers) = _
  rw [getStickyServer, hcookie, bind_some, sessionServer_eq, h.2 now hle hlt, bind_some]

lemma reply_eq {reply : Reply} (horder : InOrder inputs) (hlog : m.log inputs =
      earlier ++ ⟨t, .createSession index timestamp thread, .session (some id)⟩ ::
        (mid ++ ⟨now, .getStickyServer headers, reply⟩ :: later))
    (hserver : m.servers[index]? = some server)
    (hmid : ∀ t' serverIndex timestamp thread server',
      ⟨t', .createSession serverIndex timestamp thread, .session (some id)⟩ ∈ mid →
      m.servers[serverIndex]? = some server' → server'.url = server.url)
    (hcookie : m.extractSessionCookie headers = some id) (hlt : now < t + m.localCacheTtl) :
    reply = .server (m.findServerIndex server.url) := by
  obtain ⟨before, horder', hlog', hle, hreply⟩ := exists_between horder hlog
  have hheld : m.Held id server.url t (operate m.answer start before) := by
    refine since_event horder' hlog' (fun c hanswer => ?_) fun c x hc hnow hmem => ?_
    · have hid : (m.createSession c.state t index timestamp thread).2 = some id := by
        injection hanswer.symm
      exact held_created le_rfl hid hserver
    · refine held_tick hc hnow fun serverIndex timestamp thread server' hcall hsession => ?_
      rw [hcall] at hmem hsession
      rw [hsession] at hmem
      exact hmid _ _ _ _ server' hmem
  exact hreply.trans (answer_of_held hheld hle hlt hcookie)

lemma exists_server (hlog : m.log inputs =
      earlier ++ ⟨t, .createSession index timestamp thread, .session (some id)⟩ :: later) :
    ∃ server, m.servers[index]? = some server := by
  obtain ⟨before, -, -, hanswer⟩ := exists_before hlog
  have hid : (m.createSession (operate m.answer start before).state t index timestamp thread).2 =
      some id := by
    injection hanswer.symm
  refine ne_none_iff_exists'.mp fun hnone => ?_
  rw [createSession_of_none hnone] at hid
  cases hid

/-! ## How long sessions last -/

variable {cookieConfig : StickyCookie} {servers : List Server}

lemma localCacheTtl_eq (servers : List Server) (h : 0 ≤ maxAgeSecs cookieConfig) :
    ((ofCookie cookieConfig servers).localCacheTtl : ℤ) =
      fromSecs 1 * min (maxAgeSecs cookieConfig) 300 := by
  have hcast : ∀ a : Int64, 0 ≤ a.toInt → (a.toUInt64.toNat : ℤ) = a.toInt := by
    intro a ha
    have hint : a.toInt = a.toBitVec.toInt := rfl
    have hnat : a.toUInt64.toNat = a.toBitVec.toNat := rfl
    rw [hint, BitVec.toInt_eq_toNat_cond] at ha ⊢
    rw [hnat]
    have := a.toBitVec.isLt
    split at ha <;> split <;> omega
  have hsecs : (((cookieConfig.maxAge.getD 86400).toUInt64.toNat : ℕ) : ℤ) =
      maxAgeSecs cookieConfig := by
    unfold maxAgeSecs at h ⊢
    cases hage : cookieConfig.maxAge with
    | none => rfl
    | some a =>
      rw [hage] at h
      exact hcast a h
  have hscale : ∀ secs, fromSecs secs = fromSecs 1 * secs := by
    intro secs
    rw [fromSecs, fromSecs, Nat.mul_one]
  have hmin : ∀ secs : ℕ, ((min secs 300 : ℕ) : ℤ) = min (secs : ℤ) 300 := by
    intro secs
    omega
  rw [ofCookie, hscale, Int.natCast_mul, hmin, hsecs]

lemma findServerIndex_url_iff :
    (∀ index server, m.servers[index]? = some server →
      m.findServerIndex server.url = some index) ↔ (m.servers.map Server.url).Nodup := by
  constructor
  · intro h
    rw [nodup_iff_injective_getElem]
    rintro ⟨i, hi⟩ ⟨j, hj⟩ hurl
    simp only [getElem_map, length_map] at hurl hi hj
    have hboth := (h i _ (getElem?_eq_getElem hi)).symm.trans
      (hurl ▸ h j _ (getElem?_eq_getElem hj))
    exact Fin.ext (Option.some.inj hboth)
  · intro h index server hserver
    obtain ⟨hindex, rfl⟩ := List.getElem?_eq_some_iff.mp hserver
    rw [findServerIndex, findIdx?_eq_some_iff_getElem]
    refine ⟨hindex, beq_self_eq_true _, fun j hj => ?_⟩
    rw [beq_iff_eq]
    intro hurl
    have hindex' : index < (m.servers.map Server.url).length := by simpa using hindex
    have hsame : (m.servers.map Server.url)[j] = (m.servers.map Server.url)[index] := by
      simpa using hurl
    have hinj := nodup_iff_injective_getElem.mp h
    have heq := congrArg Fin.val (@hinj ⟨j, by omega⟩ ⟨index, hindex'⟩ hsame)
    exact absurd heq hj.ne

def firstId : Text := (generateSessionId 0 0xBEEFCAFE).1

lemma exists_request_first (hname : CookieName m.cookieConfig.name) :
    ∃ headers, m.extractSessionCookie headers = some firstId := by
  have hlast : firstId.getLast?.all (fun c => !isWhitespace c) = true := by decide +kernel
  refine exists_request hname (by decide +kernel) (fun c hc => ?_)
    (all_eq_true.mp (by decide +kernel))
  simpa [hc] using hlast

def askOnce (index now : ℕ) (headers : HeaderMap) : List (ℕ × Call) :=
  [(0, .createSession index 0 0), (now, .getStickyServer headers)]

lemma inOrder_askOnce (index now : ℕ) (headers : HeaderMap) :
    InOrder (askOnce index now headers) := by
  simp [askOnce, InOrder]

lemma log_askOnce (now : ℕ) (hserver : m.servers[index]? = some server)
    (hcookie : m.extractSessionCookie headers = some firstId) :
    m.log (askOnce index now headers) =
      [⟨0, .createSession index 0 0, .session (some firstId)⟩,
        ⟨now, .getStickyServer headers,
          .server (if now < m.localCacheTtl then m.findServerIndex server.url else none)⟩] := by
  obtain ⟨hcreated, hshown⟩ : (m.createSession start 0 index 0 0).2 = some firstId ∧ _ :=
    createSession_of_server hserver
  have hanswer : m.getStickyServer (m.createSession start 0 index 0 0).1 now headers =
      if now < m.localCacheTtl then m.findServerIndex server.url else none := by
    rw [getStickyServer, hcookie, bind_some, sessionServer_eq,
      (hshown firstId now (Nat.zero_le _)).trans (if_pos rfl), Nat.sub_zero]
    by_cases hnow : now < m.localCacheTtl <;> simp [hnow]
  show [_, (⟨now, _, .server (m.getStickyServer (m.createSession start 0 index 0 0).1 now
    headers)⟩ : Event Call Reply)] = _
  rw [hanswer, ← hcreated]
  rfl

variable (m) in
def sessionIds (inputs : List (ℕ × Call)) : List Text :=
  (m.log inputs).filterMap fun e => e.answer.id?

lemma of_lasting_once (hage : 0 < maxAgeSecs cookieConfig) (hname : CookieName cookieConfig.name)
    (h : ∀ inputs, InOrder inputs → ((ofCookie cookieConfig servers).sessionIds inputs).Nodup →
      (ofCookie cookieConfig servers).Lasting inputs) :
    (servers ≠ [] → maxAgeSecs cookieConfig ≤ 300) ∧ (servers.map Server.url).Nodup := by
  have hone : ((fromSecs 1 : ℕ) : ℤ) = 1000000000 := rfl
  have httl := localCacheTtl_eq servers (Int.le_of_lt hage)
  rw [hone] at httl
  have hpos : 0 < (ofCookie cookieConfig servers).localCacheTtl := by omega
  obtain ⟨headers, hcookie⟩ := exists_request_first (m := ofCookie cookieConfig servers) hname
  have hresolved : ∀ (index now : ℕ) (server : Server), servers[index]? = some server →
      (now : ℤ) < fromSecs 1 * maxAgeSecs cookieConfig →
      (if now < (ofCookie cookieConfig servers).localCacheTtl then
        (ofCookie cookieConfig servers).findServerIndex server.url else none) = some index := by
    intro index now server hserver hlt
    have hlog := log_askOnce (m := ofCookie cookieConfig servers) now hserver hcookie
    have hids : ((ofCookie cookieConfig servers).sessionIds (askOnce index now headers)).Nodup := by
      rw [sessionIds, hlog]
      exact nodup_singleton firstId
    have hreply := h _ (inOrder_askOnce index now headers) hids [] [] [] 0 now index 0 0 firstId
      headers _ hlog hcookie (by rw [Int.natCast_zero, Int.zero_add]; exact hlt)
    exact Reply.server.inj hreply
  refine ⟨fun hservers => ?_, (findServerIndex_url_iff (m := ofCookie cookieConfig servers)).mp
    fun index server hserver => ?_⟩
  · -- behind the life of an entry in the cache
    by_contra hlong
    obtain ⟨server, rest, rfl⟩ := exists_cons_of_ne_nil hservers
    have hthree : fromSecs 300 = 300000000000 := rfl
    have hnone := hresolved 0 (fromSecs 300) server rfl (by rw [hone]; omega)
    rw [if_neg (by omega)] at hnone
    cases hnone
  · have hfound := hresolved index 0 server hserver (by rw [hone]; omega)
    rwa [if_pos hpos] at hfound

def askForTwins (headers : HeaderMap) : List (ℕ × Call) :=
  [(0, .createSession 0 0 0), (0, .createSession 1 0 1), (0, .getStickyServer headers)]

lemma log_askForTwins (headers : HeaderMap) {first second : Server}
    (hfirst : m.servers[0]? = some first)
    (hsecond : m.servers[1]? = some second) :
    ∃ reply, m.log (askForTwins headers) =
      [⟨0, .createSession 0 0 0, .session (some firstId)⟩,
        ⟨0, .createSession 1 0 1, .session (some firstId)⟩,
        ⟨0, .getStickyServer headers, reply⟩] := by
  have hcreated : (m.createSession start 0 0 0 0).2 = some firstId :=
    (createSession_of_server hfirst).1
  have hthreads : (m.createSession start 0 0 0 0).1.threads 1 = 0xBEEFCAFE := by
    rw [createSession, hfirst]
    dsimp only [maybeCleanup]
    split <;> rfl
  have hcreated' : (m.createSession (m.createSession start 0 0 0 0).1 0 1 0 1).2 =
      some firstId := by
    rw [(createSession_of_server hsecond).1, hthreads]
    rfl
  refine ⟨.server (m.getStickyServer
    (m.createSession (m.createSession start 0 0 0 0).1 0 1 0 1).1 0 headers), ?_⟩
  show [_, (⟨0, _, .session (m.createSession (m.createSession start 0 0 0 0).1 0 1 0 1).2⟩ :
    Event Call Reply), _] = _
  rw [hcreated', ← hcreated]
  rfl

lemma le_of_log {e x : Event Call Reply} (horder : InOrder inputs)
    (hlog : m.log inputs = earlier ++ e :: (mid ++ x :: later)) : e.now ≤ x.now := by
  obtain ⟨before, horder', hlog', hle, -⟩ := exists_between horder hlog
  have hsince : e.now ≤ (operate m.answer start before).now :=
    since_event (I := fun c => e.now ≤ c.now) horder' hlog' (fun _ _ => le_rfl)
      fun _ _ hc hnow _ => hc.trans hnow
  exact hsince.trans hle

/-- **A session lasts** if nothing is asked, or a cache entry lives as long as the cookie, URLs are
not repeated and no other one gets the id. -/
theorem lasting_at {reply : Reply}
    (h : maxAgeSecs cookieConfig ≤ 0 ∨ servers = [] ∨ ¬CookieName cookieConfig.name ∨
      maxAgeSecs cookieConfig ≤ 300 ∧ (servers.map Server.url).Nodup ∧
        ∀ t' serverIndex timestamp thread server server',
          ⟨t', .createSession serverIndex timestamp thread, .session (some id)⟩ ∈ mid →
          servers[index]? = some server → servers[serverIndex]? = some server' →
          server'.url = server.url)
    (horder : InOrder inputs)
    (hlog : (ofCookie cookieConfig servers).log inputs =
      earlier ++ ⟨t, .createSession index timestamp thread, .session (some id)⟩ ::
        (mid ++ ⟨now, .getStickyServer headers, reply⟩ :: later))
    (hcookie : (ofCookie cookieConfig servers).extractSessionCookie headers = some id)
    (hlt : (now : ℤ) < t + fromSecs 1 * maxAgeSecs cookieConfig) :
    reply = .server (some index) := by
  have hone : ((fromSecs 1 : ℕ) : ℤ) = 1000000000 := rfl
  have hle : t ≤ now := le_of_log horder hlog
  obtain ⟨server, hserver⟩ := exists_server hlog
  rw [hone] at hlt
  rcases h with hover | rfl | hname | ⟨hshort, hurls, hmid⟩
  · omega
  · exact absurd hserver (by simp [ofCookie])
  · exact absurd (cookieName_of_extract hcookie) hname
  · have hage : 0 ≤ maxAgeSecs cookieConfig := by omega
    have httl := localCacheTtl_eq servers hage
    rw [hone] at httl
    rw [reply_eq horder hlog hserver
      (fun _ _ _ _ _ hmem => hmid _ _ _ _ _ _ hmem hserver) hcookie (by omega),
      findServerIndex_url_iff.mpr hurls index server hserver]

/-- **How long sessions last.** Nothing is asked of a manager with an age that is over at once,
without servers or with a name that cannot be sent. Otherwise sessions with different ids last
their age exactly if that is at most five minutes and no URL is repeated; with any ids, there must
be no other server besides. -/
theorem sticky_age_iff (cookieConfig : StickyCookie) (servers : List Server) :
    ((∀ inputs, InOrder inputs → ((ofCookie cookieConfig servers).sessionIds inputs).Nodup →
        (ofCookie cookieConfig servers).Lasting inputs) ↔
      maxAgeSecs cookieConfig ≤ 0 ∨ servers = [] ∨ ¬CookieName cookieConfig.name ∨
        maxAgeSecs cookieConfig ≤ 300 ∧ (servers.map Server.url).Nodup) ∧
    ((∀ inputs, InOrder inputs → (ofCookie cookieConfig servers).Lasting inputs) ↔
      maxAgeSecs cookieConfig ≤ 0 ∨ servers = [] ∨ ¬CookieName cookieConfig.name ∨
        maxAgeSecs cookieConfig ≤ 300 ∧ servers.length = 1) := by
  constructor
  · constructor
    · intro h
      rw [or_iff_not_imp_left, or_iff_not_imp_left, or_iff_not_imp_left]
      intro hage hservers hname
      obtain ⟨hshort, hurls⟩ := of_lasting_once (by omega) (not_not.mp hname) h
      exact ⟨hshort hservers, hurls⟩
    · intro h inputs horder hids earlier mid later t now index timestamp thread id headers reply
        hlog
      -- the id comes once
      rw [sessionIds, hlog, filterMap_append] at hids
      have hrest : (id :: _).Nodup := (nodup_append.mp hids).2.1
      refine lasting_at (h.imp_right (Or.imp_right (Or.imp_right fun ⟨hshort, hurls⟩ =>
        ⟨hshort, hurls, fun _ _ _ _ _ _ hmem => ?_⟩))) horder hlog
      refine ((nodup_cons.mp hrest).1 ?_).elim
      exact mem_filterMap.mpr ⟨_, mem_append_left _ hmem, rfl⟩
  · constructor
    · intro h
      rw [or_iff_not_imp_left, or_iff_not_imp_left, or_iff_not_imp_left]
      intro hage hservers hname
      have hname := not_not.mp hname
      have honce := of_lasting_once (by omega) hname fun inputs horder _ => h inputs horder
      refine ⟨honce.1 hservers, ?_⟩
      match servers, hservers with
      | [_], _ => rfl
      | first :: second :: rest, _ =>
        -- the id of the twins cannot stand for both servers
        exfalso
        obtain ⟨headers, hcookie⟩ :=
          exists_request_first (m := ofCookie cookieConfig (first :: second :: rest)) hname
        obtain ⟨reply, hlog⟩ := log_askForTwins
          (m := ofCookie cookieConfig (first :: second :: rest)) headers rfl rfl
        have hlasting := h (askForTwins headers) (by simp [askForTwins, InOrder])
        have hlt : ((0 : ℕ) : ℤ) < (0 : ℕ) + fromSecs 1 * maxAgeSecs cookieConfig := by
          have hone : ((fromSecs 1 : ℕ) : ℤ) = 1000000000 := rfl
          rw [hone]
          omega
        have hzero := hlasting [] [_] [] 0 0 0 0 0 firstId headers reply hlog hcookie hlt
        have hone := hlasting [_] [] [] 0 0 1 0 1 firstId headers reply hlog hcookie hlt
        cases hzero.symm.trans hone
    · intro h inputs horder earlier mid later t now index timestamp thread id headers reply hlog
      refine lasting_at (h.imp_right (Or.imp_right (Or.imp_right fun ⟨hshort, hlength⟩ =>
        ⟨hshort, ?_, fun _ _ _ _ server server' _ hserver hserver' => ?_⟩))) horder hlog
      · obtain ⟨only, rfl⟩ := length_eq_one_iff.mp hlength
        exact nodup_singleton _
      · obtain ⟨only, rfl⟩ := length_eq_one_iff.mp hlength
        rw [mem_singleton.mp (mem_of_getElem? hserver), mem_singleton.mp (mem_of_getElem? hserver')]

def returning : HeaderMap :=
  ⟨[("cookie", ⟨asBytes ("SERVERID=" ++ firstId), isValidByte_of_all (by decide +kernel)⟩)]⟩

/-- A session for an hour is not found after five minutes. -/
theorem sticky_age_hour :
    maxAgeSecs twoServers.cookieConfig = 3600 ∧
      twoServers.extractSessionCookie returning = some firstId ∧
      twoServers.log [(0, .createSession 0 0 0), (fromSecs 300, .getStickyServer returning)] =
        [⟨0, .createSession 0 0 0, .session (some firstId)⟩,
          ⟨fromSecs 300, .getStickyServer returning, .server none⟩] := by
  have hcookie : twoServers.extractSessionCookie returning = some firstId := by decide +kernel
  exact ⟨by decide +kernel, hcookie, log_askOnce (fromSecs 300) rfl hcookie⟩

end StickySessionManager

end TrafficCop
