import CommunicationProtocols.Client.Requests
import CommunicationProtocols.Library.Execution

/-!
# The client's command loop

One step of the machine is one command: the request is built from the cookies,
sent, and the response decides what becomes of them. The cookies are allocated
without being written, so a run may start with any. The command words and fields
that are typed, and the JSON texts made from them, are taken as they come, although
the client reads them into blocks of one byte; `Command.Fits` and `Token.Fits` say
which of them have room there.
-/

namespace CommunicationProtocols.Client

open Library

/-- A command, with the serialized fields or the id it asks for. A word that is none of
the commands is ignored, if it has room in the block it is read into. -/
inductive Command where
  | register (data : CString)
  | login (data : CString)
  | enterLibrary
  | getBooks
  | getBook (id : CString)
  | addBook (data : CString)
  | deleteBook (id : CString)
  | logout
  | unknown
deriving DecidableEq

/-- A command and the string `receive_from_server` returns for its request. -/
structure Exchange where
  command : Command
  response : CString
deriving DecidableEq

/-- The cookies, and the string in which `strtok` goes on when it is called with NULL. -/
structure ClientState where
  cookies : Cookies
  saved : Option CString
deriving DecidableEq

/-- `strstr`. -/
def strstr (string pattern : CString) : Option CString :=
  (Search.first pattern string).map fun i => string.drop i

/-- `strtok` with the delimiter `;`: the token and where it goes on. -/
def strtok (string : CString) : Option CString × CString :=
  let string := string.dropWhile fun byte => byte = 59
  if string = [] then (none, [])
  else (some (string.takeWhile fun byte => byte ≠ 59),
    (string.dropWhile fun byte => byte ≠ 59).drop 1)

/-- `basic_extract_json_response`. -/
def basicExtractJsonResponse (string : CString) : Option CString :=
  strstr string (ascii "\x7b\"")

def host : CString := ascii "ec2-3-8-116-10.eu-west-2.compute.amazonaws.com"

def contentType : CString := ascii "application/json"

def booksUrl : CString := ascii "/api/v1/tema/library/books"

/-- The name of the session cookie in a response. -/
def sidName : CString := ascii "connect.sid="

/-- The request a command sends. -/
def request (cookies : Cookies) : Command → Option Request
  | .register data =>
      some (computePostRequest host (ascii "/api/v1/tema/auth/register") contentType data none 0)
  | .login data =>
      some (computePostRequest host (ascii "/api/v1/tema/auth/login") contentType data none 0)
  | .enterLibrary =>
      some (computeGetRequest host (ascii "/api/v1/tema/library/access") (some cookies) 1)
  | .getBooks => some (computeGetRequest host booksUrl (some cookies) 2)
  | .getBook id => some (computeGetRequest host (booksUrl ++ ascii "/" ++ id) (some cookies) 2)
  | .addBook data => some (computePostRequest host booksUrl contentType data (some cookies) 2)
  | .deleteBook id =>
      some (computeDeleteRequest host (booksUrl ++ ascii "/" ++ id) (some cookies) 2)
  | .logout => some (computeGetRequest host (ascii "/api/v1/tema/auth/logout") (some cookies) 1)
  | .unknown => none

/-- The string from which a login without an error takes the cookie: from the
cookie's name on, or where `strtok` stopped before if there is no such name. -/
def loginString (client : ClientState) (response : CString) : Option CString :=
  (strstr response sidName).or client.saved

/-- What a command does with the response; `jsonToken` is the string parson finds
under `"token"`. Printing or tokenizing NULL ends the process. -/
def respond (jsonToken : CString → Option CString) (client : ClientState) (response : CString) :
    Command → Option ClientState
  | .login _ =>
      if (basicExtractJsonResponse response).isSome then some client
      else
        (loginString client response).bind fun string =>
          (strtok string).1.map fun token =>
            ⟨{ client.cookies with sid := some token }, some (strtok string).2⟩
  | .enterLibrary =>
      (basicExtractJsonResponse response).map fun json =>
        match jsonToken json with
        | some token => { client with cookies := { client.cookies with token := some token } }
        | none => client
  | .getBooks =>
      ((basicExtractJsonResponse response).or (strstr response (ascii "["))).map fun _ => client
  | .getBook _ =>
      ((basicExtractJsonResponse response).or (strstr response (ascii "[\x7b\""))).map fun _ =>
        client
  | .logout => some { client with cookies := { client.cookies with token := none } }
  | .register _ | .addBook _ | .deleteBook _ | .unknown => some client

/-- The client as a machine on exchanges; it has no state once the process has ended. -/
def machine (jsonToken : CString → Option CString) :
    Machine (Option ClientState) Exchange Request where
  Admits _ _ := True
  step client exchange := client.map fun client =>
    (respond jsonToken client exchange.response exchange.command,
      (request client.cookies exchange.command).toList)

end CommunicationProtocols.Client
