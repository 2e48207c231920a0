import TrafficCop.Http.Cookies

/-!
# Where the JWT middleware takes its token from

`extract_token` of `middleware/builtin/jwt.rs`.
-/

namespace TrafficCop

open Rust Http List Option

structure JwtTokenSource where
  headerName : Text
  headerPrefix : Text
  queryParam : Option Text := none
  cookieName : Option Text := none
  deriving Repr, DecidableEq

namespace JwtTokenSource

variable (source : JwtTokenSource)

def headerToken (headers : HeaderMap) : Option Text :=
  ((headers.get source.headerName).bind HeaderValue.toStr).bind (stripPrefix source.headerPrefix)

def queryToken (query : Option Text) : Option Text :=
  source.queryParam.bind fun param =>
    query.bind fun query =>
      (query.splitOn '&').findSome? fun pair =>
        (splitOnce '=' pair).bind fun p => if p.1 = param then some p.2 else none

def cookieToken (headers : HeaderMap) : Option Text :=
  source.cookieName.bind fun cookieName =>
    ((headers.get "cookie").bind HeaderValue.toStr).bind fun cookies =>
      -- a crumb without `=` is skipped
      (cookies.splitOn ';').findSome? fun cookie =>
        (splitOnce '=' (trim cookie)).bind fun p =>
          if trim p.1 = cookieName then some p.2 else none

/-- A header with a prefix, a parameter of the query, or a cookie, in this order. -/
def extractToken (headers : HeaderMap) (query : Option Text) : Option Text :=
  (source.headerToken headers).or ((source.queryToken query).or (source.cookieToken headers))

variable {source} {headers : HeaderMap} {header : HeaderValue} {text : Text} {crumbs : List Crumb}

lemma cookieToken_eq {name : Text} (hsource : source.cookieName = some name)
    (hget : headers.get "cookie" = some header) (htext : header.toStr = some text)
    (hspells : Spells crumbs text) : source.cookieToken headers = firstNamed name crumbs := by
  simp only [cookieToken, hsource, hget, htext, bind_some]
  rcases hspells.splitOn with ⟨rfl, rfl⟩ | hspelled
  · rfl
  · -- crumb by crumb
    generalize text.splitOn ';' = texts at hspelled ⊢
    clear hspells
    induction hspelled with
    | nil => rfl
    | cons hfirst _ ih =>
      rw [firstNamed, findSome?_cons, findSome?_cons, hfirst.valueOf_eq]
      split
      · rfl
      · exact ih

end JwtTokenSource

end TrafficCop
