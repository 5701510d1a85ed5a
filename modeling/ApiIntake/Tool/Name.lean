import ApiIntake.OpenApi.Document

/-!
# Names of tools and servers

An operation without a name of its own is named for its method and path; a name that
is taken already gets the least number that makes it new.  A server is named for the
title of its document, in small letters and digits with single underscores, and for
the hash of the document.
-/

namespace ApiIntake

open ApiIntake.OpenApi (Method)

/-- The greatest length of a name made from a path. -/
def toolNameBound : Nat := 64

/-- The greatest length of the part of a server name made from the title. -/
def slugBound : Nat := 48

/-- How many digits of the hash a server name shows. -/
def hashDigitsShown : Nat := 8

/-- Whether a character is an ASCII letter or digit. -/
def isNameChar (c : Char) : Bool := c.isAlphanum

/-- Writes one underscore in place of each longest run of characters that are no
ASCII letters or digits.  `gap` says that such a run has begun. -/
def joinRuns (gap : Bool) : List Char → List Char
  | [] => []
  | c :: cs =>
    if isNameChar c then c :: joinRuns false cs
    else if gap then joinRuns true cs
    else '_' :: joinRuns true cs

/-- Drops underscores at the end. -/
def trimEnd (cs : List Char) : List Char := (cs.reverse.dropWhile (· = '_')).reverse

/-- Drops underscores at both ends. -/
def trimUnderscores (cs : List Char) : List Char := trimEnd (cs.dropWhile (· = '_'))

/-- Writes an underscore in place of the brace before each path parameter and drops
the brace behind it.  A parameter is a brace, at least one character that is no
closing brace, and a closing brace. -/
def openBraces : Nat → List Char → List Char
  | 0, cs => cs
  | fuel + 1, cs =>
    match cs with
    | [] => []
    | '\x7b' :: rest =>
      let inner := rest.takeWhile (· ≠ '\x7d')
      match rest.dropWhile (· ≠ '\x7d') with
      | _ :: rest' =>
        if inner.isEmpty then '\x7b' :: openBraces fuel rest
        else '_' :: inner ++ openBraces fuel rest'
      | [] => '\x7b' :: openBraces fuel rest
    | c :: rest => c :: openBraces fuel rest

/-- The name of an operation by its method and path. -/
def nameFromPath (method : Method) (path : String) : String :=
  let raw := method.lower.toList ++ '_' :: path.toList
  let opened := openBraces raw.length raw
  String.ofList ((trimUnderscores (joinRuns false opened)).take toolNameBound)

/-- A name with a number behind it. -/
def numbered (base : String) (k : Nat) : String := base ++ "_" ++ toString k

/-- The first of the names `base_k`, `base_(k+1)`, … that is not taken, out of `fuel`
of them. -/
def nextFree (taken : List String) (base : String) (k : Nat) : Nat → String
  | 0 => numbered base k
  | fuel + 1 =>
    if taken.contains (numbered base k) then nextFree taken base (k + 1) fuel else numbered base k

/-- A name that is not taken: the base itself, or with the least number from one on.
One of the first numbers is free, since fewer names are taken. -/
def freeName (taken : List String) (base : String) : String :=
  if taken.contains base then nextFree taken base 1 taken.length else base

/-- The small letters of a character as far as they are ASCII: beyond ASCII only the
Kelvin sign and the dotted capital I have any. -/
def lowerChar (c : Char) : List Char :=
  if c = '\u212a' then ['k']
  else if c = '\u0130' then ['i', '\u0307']
  else [c.toLower]

/-- The part of a server name made from the title, `openapi` if nothing is left of
the title. -/
def titleSlug (title : String) : String :=
  let joined := trimUnderscores (joinRuns false (title.toList.flatMap lowerChar))
  let slug := trimEnd (joined.take slugBound)
  if slug.isEmpty then "openapi" else String.ofList slug

/-- The name of a server by the title of its document and the hash of the document
in hexadecimal digits. -/
def nameFromTitle (title hash : String) : String :=
  titleSlug title ++ "_" ++ String.ofList (hash.toList.take hashDigitsShown)

example : nameFromPath .get "/user/\x7busername\x7d/repos" = "get_user_username_repos" := by
  decide +kernel

example : freeName ["a", "a_1"] "a" = "a_2" := by decide +kernel

example : titleSlug "Pet Store (v2)!" = "pet_store_v2" := by decide +kernel

end ApiIntake
