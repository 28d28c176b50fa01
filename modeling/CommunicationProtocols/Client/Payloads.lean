import CommunicationProtocols.Client.MessageSizes
import CommunicationProtocols.Parson.Setters

/-!
# Payloads

`register`, `login` and `add_book` make a JSON object of what is typed and send its text
as the body of a POST. Whether a field could be set is not looked at: a string that is
not in UTF-8 is left out. A server that reads the request as HTTP, and the declared number
of bytes of its body as JSON, gets the fields as they were typed, if the words that were
typed fit their blocks. Behind those bytes every POST has a line end more.
-/

namespace CommunicationProtocols.Client

open Library Library.Json Parson

/-- `parson_malloc`, whose blocks have the size asked for and any contents. -/
structure Malloc where
  block : Nat → List UInt8
  sized : ∀ n, (block n).length = n

/-! ## What the commands serialize -/

/-- `json_object_set_string` on the object of a command, which goes on without the field
if it fails. -/
def setField (rootObject : List (Member Binary64)) (name : String) (string : CString) :
    List (Member Binary64) :=
  (jsonObjectSetString rootObject (ascii name) string).getD rootObject

/-- The object of `register` and `login`. -/
def credentialsObject (username password : Token) : List (Member Binary64) :=
  let rootObject := setField [] "username" username.bytes
  setField rootObject "password" password.bytes

/-- The loop of `add_book` that asks for another author, with the tokens that are still to be
typed. -/
def askAuthor (author : Token) : List Token → Option Token
  | [] => if isNumber author.bytes then none else some author
  | next :: later => if isNumber author.bytes then askAuthor next later else some author

/-- The object of `add_book`. -/
def bookObject (title author genre publisher : Token) (count : Int) : List (Member Binary64) :=
  let rootObject := setField [] "title" title.bytes
  let rootObject := setField rootObject "author" author.bytes
  let rootObject := setField rootObject "genre" genre.bytes
  let rootObject := setField rootObject "publisher" publisher.bytes
  (jsonObjectSetNumber doubles rootObject (ascii "page_count") (ofInt count)).getD rootObject

/-- `json_serialize_to_string_pretty`. -/
def serializedString (malloc : Malloc) (rootObject : List (Member Binary64)) : Option CString :=
  ((jsonSerializeToString doubles ⟨true, true⟩ malloc.block (.object rootObject)).bind id).map
    cString

/-! ## How a server reads a request -/

/-- The request, and the JSON value of its body of the declared length. -/
def serverReads (text : CString) : Option (HttpRequest × Value Binary64) :=
  (HttpRequest.parse text).bind fun parsed =>
    match headerValues RequestCall.contentLengthName parsed.fields with
    | [length] =>
        if Decimal.value length ≤ parsed.body.length then
          (jsonParseString doubles (parsed.body.take (Decimal.value length))).map fun value =>
            (parsed, value)
        else none
    | _ => none

/-- Every POST declares the length of its data once. -/
theorem declared_length (host url contentType data : CString) (argument : CookiesArgument) :
    headerValues RequestCall.contentLengthName
      (RequestCall.post host url contentType data argument).sent.fields =
        [Decimal.text data.length] := by
  have none : headerValues RequestCall.contentLengthName [] = [] := rfl
  simp only [RequestCall.sent]
  split_ifs
  · cases argument <;>
      simp (disch := decide) [RequestCall.hostLine, RequestCall.contentTypeLine,
        RequestCall.contentLengthLine, CookiesArgument.lines, headerValues_other,
        headerValues_same, none]
  · simp (disch := decide) [RequestCall.hostLine, RequestCall.contentTypeLine,
      RequestCall.contentLengthLine, headerValues_other, headerValues_same, none]

/-- The data of a POST is read as JSON, unless a single cookie has been put in front of it. -/
theorem serverReads_post {host url contentType data : CString} {argument : CookiesArgument}
    (clean : (RequestCall.post host url contentType data argument).Clean)
    (inFront : argument.count = 2 ∨ argument.lines = []) :
    serverReads (RequestCall.post host url contentType data argument).text =
      (jsonParseString doubles data).map fun value =>
        ((RequestCall.post host url contentType data argument).sent, value) := by
  have body : (RequestCall.post host url contentType data argument).sent.body =
      data ++ HttpRequest.crlf := by
    simp only [RequestCall.sent]
    split_ifs with two
    · rfl
    · rw [inFront.resolve_left two]
      rfl
  rw [serverReads, RequestCall.parse_text clean, Option.bind_some, declared_length]
  dsimp only
  rw [Decimal.value_text, body, if_pos (by rw [List.length_append]; omega), List.take_left]

/-! ## Fields -/

open Classical in
/-- The member a field becomes, if it is in UTF-8. -/
noncomputable def field (name : String) (string : CString) : List (Member Binary64) :=
  if Utf8.Valid string then [(ascii name, .string string)] else []

variable {root : List (Member Binary64)} {name : String} {string : CString} {names : List CString}

/-- A field has its own name, or is missing. -/
theorem field_names (name : String) (string : CString) :
    ((field name string).map Prod.fst).Sublist [ascii name] := by
  unfold field
  split_ifs
  · exact .refl _
  · exact List.nil_sublist _

/-- No fields have no names. -/
theorem fieldNames_nil : (([] : List (Member Binary64)).map Prod.fst).Sublist [] := .refl _

/-- A field with a new name is added at the end. -/
theorem setField_eq (name : String) (string : CString)
    (known : (root.map Prod.fst).Sublist names) (fresh : ascii name ∉ names) :
    setField root name string = root ++ field name string ∧
      ((root ++ field name string).map Prod.fst).Sublist (names ++ [ascii name]) := by
  refine ⟨jsonObjectSetString_getD fun member => fresh (known.subset member), ?_⟩
  rw [List.map_append]
  exact known.append (field_names name string)

/-- No name is among no fields. -/
theorem absent_nil {name : CString} : name ∉ ([] : List (Member Binary64)).map Prod.fst :=
  fun member => List.not_mem_nil (fieldNames_nil.subset member)

open Classical in
/-- A field is found under its name if it is in UTF-8. -/
theorem getString_field (name : String) (token : Token) {front back : List (Member Binary64)}
    (before : ascii name ∉ front.map Prod.fst) (behind : ascii name ∉ back.map Prod.fst) :
    jsonObjectGetString (some (front ++ (field name token.bytes ++ back))) (ascii name) =
      if Utf8.Valid token.bytes then some token.bytes else none := by
  have whole : cString token.bytes = token.bytes := by
    rw [cString, List.takeWhile_eq_self_iff]
    intro byte member
    simpa using token.terminated byte member
  rw [jsonObjectGetString, Option.bind_some, field]
  split_ifs with valid
  · rw [List.singleton_append, jsonObjectGetnValue_first before, Option.bind_some,
      jsonValueGetString, whole]
  · have absent : ascii name ∉ (front ++ ([] ++ back)).map Prod.fst := by
      rw [List.nil_append, List.map_append, List.mem_append, not_or]
      exact ⟨before, behind⟩
    rw [jsonObjectGetnValue_eq_none_iff.mpr absent, Option.bind_none]

/-- What the commands put under a name: a word that fits its block, or a number that can be
read back. -/
def IsScalar : Value Binary64 → Prop
  | .string bytes => bytes.length < tokenRoom
  | .number n => Readable n
  | _ => False

/-- A field that was typed is a short string. -/
theorem isScalar_field (fits : string.length < tokenRoom) :
    ∀ member ∈ field name string, IsScalar member.2 := by
  unfold field
  split_ifs
  · exact List.forall_mem_singleton.mpr fits
  · exact fun member inside => absurd inside List.not_mem_nil

/-- The text of every member is short. -/
theorem membersBound_le (names : ∀ member ∈ root, member.1.length ≤ 10)
    (scalars : ∀ member ∈ root, IsScalar member.2) :
    membersBound root 1 ≤ root.length * 210 := by
  have sizes : tokenRoom = 24 ∧ numBufSize = 64 := ⟨rfl, rfl⟩
  induction root with
  | nil => exact Nat.le_refl 0
  | cons member root ih =>
      obtain ⟨name, value⟩ := member
      obtain ⟨nameShort, otherNames⟩ := List.forall_mem_cons.mp names
      obtain ⟨scalar, others⟩ := List.forall_mem_cons.mp scalars
      have later := ih otherNames others
      have here : textBound value 1 ≤ 140 := by
        cases value with
        | string bytes =>
            have short : bytes.length < tokenRoom := scalar
            rw [textBound]
            omega
        | number =>
            rw [textBound]
            omega
        | null | boolean | array | object => exact scalar.elim
      dsimp only at nameShort
      rw [membersBound, List.length_cons]
      omega

/-- What holds of a scalar holds everywhere in it. -/
theorem everywhere_of_scalar {property : Value Binary64 → Prop} {value : Value Binary64}
    (scalar : IsScalar value) (holds : property value) : value.Everywhere property := by
  cases value with
  | string => exact Value.everywhere_string.mpr holds
  | number => exact Value.everywhere_number.mpr holds
  | null | boolean | array | object => exact scalar.elim

/-- An object of scalars has distinct names without NUL if those it may have are. -/
theorem named_of_scalars (known : (root.map Prod.fst).Sublist names) (distinct : names.Nodup)
    (clean : ∀ name ∈ names, 0 ∉ name) (scalars : ∀ member ∈ root, IsScalar member.2) :
    (Value.object root).Everywhere (Value.Named (0 ∉ ·)) := by
  refine Value.everywhere_object.mpr ⟨⟨distinct.sublist known, fun member inside => ?_⟩,
    fun member inside => everywhere_of_scalar (scalars member inside) ?_⟩
  · exact clean _ (known.subset (List.mem_map_of_mem inside))
  · cases same : member.2 with
    | object => exact (same ▸ scalars member inside : IsScalar (.object _)).elim
    | _ => trivial

/-- The numbers of an object of scalars are read back. -/
theorem readable_of_scalars (scalars : ∀ member ∈ root, IsScalar member.2) :
    (Value.object root).Everywhere (Value.NumberIs Readable) := by
  refine Value.everywhere_object.mpr ⟨trivial, fun member inside =>
    everywhere_of_scalar (scalars member inside) ?_⟩
  have scalar := scalars member inside
  cases same : member.2 with
  | number n => rwa [same] at scalar
  | _ => trivial

/-- An object of scalars is not nested. -/
theorem shallow_of_scalars (scalars : ∀ member ∈ root, IsScalar member.2) :
    (Value.object root).depth ≤ maxNesting := by
  refine Nat.le_trans (Value.depth_object_le_iff.mpr fun member inside => ?_)
    (show 1 ≤ maxNesting by decide)
  have scalar := scalars member inside
  cases same : member.2 with
  | string | number => exact Nat.le_refl 1
  | null | boolean | array | object =>
      rw [same] at scalar
      exact scalar.elim

/-- An object of at most five scalars under distinct names is parsed back from its text,
which is short. -/
theorem parse_serializedString (malloc : Malloc) (known : (root.map Prod.fst).Sublist names)
    (distinct : names.Nodup) (clean : ∀ name ∈ names, 0 ∉ name)
    (short : names.length ≤ 5 ∧ ∀ name ∈ names, name.length ≤ 10)
    (scalars : ∀ member ∈ root, IsScalar member.2) :
    ∃ data, serializedString malloc root = some data ∧ data.length ≤ payloadRoom ∧
      jsonParseString doubles data = some (.object root) := by
  have named := named_of_scalars known distinct clean scalars
  have readable := readable_of_scalars scalars
  have bound : textBound (.object root) 0 ≤ payloadRoom := by
    have room : payloadRoom = 1053 := rfl
    have few : root.length ≤ names.length := by simpa using known.length_le
    have inside := membersBound_le
      (fun member here => short.2 _ (known.subset (List.mem_map_of_mem here))) scalars
    rw [textBound, Nat.zero_add]
    omega
  have finite : (Value.object root).Everywhere (Value.NumberIs Parson.Finite) :=
    readable.mono fun part => by
      cases part with
      | number n => exact finite_of_readable
      | _ => exact id
  have counted := counted_of_textBound ⟨true, true⟩ (serializable_doubles named finite)
    (Nat.lt_of_le_of_lt bound (by decide))
  obtain ⟨block, printed, fits, parsed⟩ :=
    parse_serialize_doubles ⟨true, true⟩ named readable counted malloc.sized
  refine ⟨cString block, ?_, Nat.le_trans fits bound, parsed.mpr (shallow_of_scalars scalars)⟩
  rw [serializedString, printed]
  rfl

/-! ## What arrives -/

/-- The object has both fields, in the order in which they are set. -/
theorem credentialsObject_eq (username password : Token) :
    credentialsObject username password =
        field "username" username.bytes ++ field "password" password.bytes ∧
      ((field "username" username.bytes ++ field "password" password.bytes).map
        Prod.fst).Sublist [ascii "username", ascii "password"] := by
  obtain ⟨first, known⟩ := setField_eq "username" username.bytes fieldNames_nil
    List.not_mem_nil
  obtain ⟨second, known⟩ := setField_eq "password" password.bytes known (by decide)
  rw [List.nil_append] at first second known
  exact ⟨by rw [credentialsObject, first, second], known⟩

/-- The route of a command that posts. -/
def postUrl : Command → Option CString
  | .register _ => some (ascii "/api/v1/tema/auth/register")
  | .login _ => some (ascii "/api/v1/tema/auth/login")
  | .addBook _ => some booksUrl
  | _ => none

/-- The data of a command that posts. -/
def postData : Command → Option CString
  | .register data | .login data | .addBook data => some data
  | _ => none

/-- The request of a command stays inside its blocks. It is a POST for its route that declares
the length of its data. Its body is the data, read as a JSON object, and a line end behind
them. -/
structure Posts (cookies : Cookies) (command : Command) (parsed : HttpRequest)
    (members : List (Member Binary64)) : Prop where
  read : (request cookies command).bind (fun sent => serverReads (HttpRequest.linesText sent)) =
    some (parsed, .object members)
  inside : ∀ sent ∈ request cookies command, Inside sent
  method : parsed.method = ascii "POST"
  target : some parsed.target = postUrl command
  declared : some (headerValues RequestCall.contentLengthName parsed.fields) =
    (postData command).map fun data => [Decimal.text data.length]
  lineEnd : some parsed.body = (postData command).map fun data => data ++ HttpRequest.crlf

open Classical in
/-- What is typed at `register` and `login` arrives, if it fits: the server reads a POST for
the route of the command, whose body is an object with the user name and the password that
were typed, in front of a line end. A field that is not in UTF-8 is missing. -/
theorem credentials_arrive (malloc : Malloc) (cookies : Cookies) {username password : Token}
    (fits : username.Fits ∧ password.Fits) :
    ∃ data, serializedString malloc (credentialsObject username password) = some data ∧
      ∀ command ∈ [Command.register data, Command.login data], ∃ parsed members,
        Posts cookies command parsed members ∧
          jsonObjectGetString (some members) (ascii "username") =
            (if Utf8.Valid username.bytes then some username.bytes else none) ∧
          jsonObjectGetString (some members) (ascii "password") =
            if Utf8.Valid password.bytes then some password.bytes else none := by
  obtain ⟨object, known⟩ := credentialsObject_eq username password
  rw [object]
  obtain ⟨data, serialized, small, parsed⟩ := parse_serializedString malloc known (by decide)
    (by decide) (by decide) fun member inside =>
      (List.mem_append.mp inside).elim (isScalar_field fits.1 member)
        (isScalar_field fits.2 member)
  refine ⟨data, serialized, fun command listed => ?_⟩
  obtain ⟨url, sent, route, isData, clean, short⟩ : ∃ url, request cookies command =
      some (RequestCall.post host url contentType data (.null 0)).request ∧
        some url = postUrl command ∧ postData command = some data ∧ (13 ∉ url ∧ 10 ∉ url) ∧
          url.length ≤ 60 := by
    rcases List.mem_pair.mp listed with rfl | rfl
    · exact ⟨_, rfl, rfl, rfl, by decide, by decide⟩
    · exact ⟨_, rfl, rfl, rfl, by decide, by decide⟩
  have plain : (13 ∉ host ∧ 10 ∉ host) ∧ 13 ∉ contentType ∧ 10 ∉ contentType := by decide
  have cleanCall : (RequestCall.post host url contentType data (.null 0)).Clean := by
    simp [RequestCall.Clean, RequestCall.strings, CookiesArgument.strings, plain, clean]
  have read := serverReads_post cleanCall (.inr rfl)
  rw [parsed, Option.map_some] at read
  have inside : ∀ message ∈ request cookies command, Inside message := by
    rw [sent]
    rintro _ ⟨⟩
    exact inside_post noCredentials_printable short small (.inl ⟨rfl, rfl⟩)
  have declared := declared_length host url contentType data (.null 0)
  refine ⟨_, _, ⟨by rw [sent]; exact read, inside, rfl, route,
    by rw [declared, isData, Option.map_some], by rw [isData]; rfl⟩, ?_, ?_⟩
  · have behind : ascii "username" ∉ (field "password" password.bytes).map Prod.fst :=
      fun member => absurd ((field_names _ _).subset member) (by decide)
    simpa using getString_field "username" username absent_nil behind
  · have before : ascii "password" ∉ (field "username" username.bytes).map Prod.fst :=
      fun member => absurd ((field_names _ _).subset member) (by decide)
    simpa using getString_field "password" password before absent_nil

/-- The word `"x"`. -/
def letterToken : Token := ⟨ascii "x", by decide, by decide +kernel, by decide +kernel⟩

/-- Blocks of zeros. -/
def zeroMalloc : Malloc := ⟨fun n => List.replicate n 0, fun _ => List.length_replicate⟩

/-- The user `x` with the password `x`. -/
theorem credentials_arrive_sample :
    ∃ data, serializedString zeroMalloc (credentialsObject letterToken letterToken) = some data ∧
      ∀ command ∈ [Command.register data, Command.login data], ∃ parsed members,
        Posts ⟨none, none⟩ command parsed members := by
  obtain ⟨data, serialized, arrives⟩ :=
    @credentials_arrive zeroMalloc ⟨none, none⟩ letterToken letterToken (by decide)
  refine ⟨data, serialized, fun command listed => ?_⟩
  obtain ⟨parsed, members, posts, -⟩ := arrives command listed
  exact ⟨parsed, members, posts⟩

/-! ## Books -/

/-- The author that is sent is no number. -/
theorem askAuthor_sound {first author : Token} {later : List Token}
    (asked : askAuthor first later = some author) : isNumber author.bytes = false := by
  induction later generalizing first with
  | nil =>
      rw [askAuthor] at asked
      split_ifs at asked with refused
      obtain rfl := Option.some.inj asked
      simpa using refused
  | cons next later ih =>
      rw [askAuthor] at asked
      split_ifs at asked with refused
      · exact ih asked
      · obtain rfl := Option.some.inj asked
        simpa using refused

/-- The author that is sent is one that was typed. -/
theorem askAuthor_fits {first author : Token} {later : List Token}
    (asked : askAuthor first later = some author) (firstFits : first.Fits)
    (fits : ∀ token ∈ later, token.Fits) : author.Fits := by
  induction later generalizing first with
  | nil =>
      rw [askAuthor] at asked
      split_ifs at asked
      exact Option.some.inj asked ▸ firstFits
  | cons next later ih =>
      obtain ⟨nextFits, othersFit⟩ := List.forall_mem_cons.mp fits
      rw [askAuthor] at asked
      split_ifs at asked
      · exact ih asked nextFits othersFit
      · exact Option.some.inj asked ▸ firstFits

/-- The count that is sent is a positive `int`. -/
theorem submittedCount_lt {pageCounts : List Token} {pageCount : Token} {count : Int}
    (submitted : submittedCount pageCounts = some (pageCount, count)) : count < 2 ^ 31 := by
  rw [submittedCount_eq] at submitted
  obtain ⟨token, found, same⟩ := Option.map_eq_some_iff.mp submitted
  obtain ⟨rfl, rfl⟩ := Prod.mk.inj same
  rcases accepted_iff.mp (accepted_of_find found) with isPageCount | wraps
  · have small := isPageCount.small
    rw [isPageCount.atoi_eq]
    omega
  · have small := wraps.small
    rw [wraps.atoi_eq]
    omega

/-- The fields of a book in front of the number of its pages. -/
noncomputable def bookFields (title author genre publisher : Token) : List (Member Binary64) :=
  field "title" title.bytes ++ (field "author" author.bytes ++
    (field "genre" genre.bytes ++ field "publisher" publisher.bytes))

/-- The member with the number of pages. -/
def pagesMember (x : Magnitude) : Member Binary64 :=
  (ascii "page_count", .number (.finite false x))

/-- The names of the strings of a book. -/
def bookNames : List CString :=
  [ascii "title", ascii "author", ascii "genre", ascii "publisher"]

/-- The fields of a book have their names in order. -/
theorem bookFields_names (title author genre publisher : Token) :
    ((bookFields title author genre publisher).map Prod.fst).Sublist bookNames := by
  simp only [bookFields, List.map_append]
  exact (field_names _ _).append ((field_names _ _).append
    ((field_names _ _).append (field_names _ _)))

/-- The object has the fields of the book and the number of pages. -/
theorem bookObject_eq (title author genre publisher : Token) {count : Int} {x : Magnitude}
    (exact : ofInt count = .finite false x) :
    bookObject title author genre publisher count = bookFields title author genre publisher ++
      [pagesMember x] := by
  obtain ⟨first, known⟩ := setField_eq "title" title.bytes fieldNames_nil List.not_mem_nil
  obtain ⟨second, known⟩ := setField_eq "author" author.bytes known (by decide)
  obtain ⟨third, known⟩ := setField_eq "genre" genre.bytes known (by decide)
  obtain ⟨fourth, known⟩ := setField_eq "publisher" publisher.bytes known (by decide)
  have absent : ascii "page_count" ∉ (((([] ++ field "title" title.bytes) ++
      field "author" author.bytes) ++ field "genre" genre.bytes) ++
      field "publisher" publisher.bytes).map Prod.fst := fun member =>
    absurd (known.subset member) (by decide)
  have valid : jsonValueInitNumber doubles (.finite false x) =
      some (.number (.finite false x)) := rfl
  rw [bookObject, first, second, third, fourth, exact, jsonObjectSetNumber, valid,
    Option.bind_some, jsonObjectSetValue_absent absent, Option.getD_some, bookFields, pagesMember]
  simp only [List.nil_append, List.append_assoc]

open Classical in
/-- Every string of a book is found under its name. -/
theorem getString_book (title author genre publisher : Token) (x : Magnitude) :
    ∀ name token, (name, token) ∈ [("title", title), ("author", author), ("genre", genre),
        ("publisher", publisher)] →
      jsonObjectGetString (some (bookFields title author genre publisher ++ [pagesMember x]))
        (ascii name) = if Utf8.Valid token.bytes then some token.bytes else none := by
  have other {members : List (Member Binary64)} {names : List CString} {name : CString}
      (known : (members.map Prod.fst).Sublist names) (different : name ∉ names) :
      name ∉ members.map Prod.fst := fun member => different (known.subset member)
  have titles := field_names "title" title.bytes
  have authors := field_names "author" author.bytes
  have genres := field_names "genre" genre.bytes
  have publishers := field_names "publisher" publisher.bytes
  have pages : ([pagesMember x].map Prod.fst).Sublist [ascii "page_count"] := .refl _
  intro name token listed
  simp only [List.mem_cons, List.not_mem_nil, or_false, Prod.mk.injEq] at listed
  rcases listed with ⟨rfl, rfl⟩ | ⟨rfl, rfl⟩ | ⟨rfl, rfl⟩ | ⟨rfl, rfl⟩
  · have behind := authors.append (genres.append (publishers.append pages))
    simp only [← List.map_append] at behind
    simpa [bookFields] using getString_field "title" _ absent_nil (other behind (by decide))
  · have behind := genres.append (publishers.append pages)
    simp only [← List.map_append] at behind
    simpa [bookFields] using getString_field "author" _ (other titles (by decide))
      (other behind (by decide))
  · have behind := publishers.append pages
    have before := titles.append authors
    simp only [← List.map_append] at before behind
    simpa [bookFields] using getString_field "genre" _ (other before (by decide))
      (other behind (by decide))
  · have before := titles.append (authors.append genres)
    simp only [← List.map_append] at before
    simpa [bookFields] using getString_field "publisher" _ (other before (by decide))
      (other pages (by decide))

open Classical in
/-- What is typed at `add_book` arrives, if it fits, and the credentials are printable: the
server reads a POST with both credentials, whose body is, in front of a line end, an object
with the strings that are in UTF-8, as they were typed, an author that is no number, and the
number of pages, which is the one typed as long as that is an `int`. -/
theorem book_arrives (malloc : Malloc) {cookies : Cookies} {title genre publisher : Token}
    {author firstAuthor pageCount : Token} {authors pageCounts : List Token} {count : Int}
    (printable : cookies.Printable)
    (fits : ∀ token ∈ title :: genre :: publisher :: firstAuthor :: (authors ++ pageCounts),
      token.Fits)
    (asked : askAuthor firstAuthor authors = some author)
    (submitted : submittedCount pageCounts = some (pageCount, count)) :
    ∃ data, serializedString malloc (bookObject title author genre publisher count) = some data ∧
      ∃ parsed members, Posts cookies (.addBook data) parsed members ∧
        headerValues cookieName parsed.fields = [printed cookies.sid] ∧
        headerValues authorizationName parsed.fields = [printed cookies.token] ∧
        (∀ name token, (name, token) ∈ [("title", title), ("author", author), ("genre", genre),
            ("publisher", publisher)] →
          jsonObjectGetString (some members) (ascii name) =
            if Utf8.Valid token.bytes then some token.bytes else none) ∧
        isNumber author.bytes = false ∧
        ∃ x : Magnitude, jsonObjectGetnValue members (ascii "page_count") =
            some (.number (.finite false x)) ∧
          x.value = (Decimal.value pageCount.bytes % 2 ^ 32 : ℕ) := by
  obtain ⟨-, positive, counted⟩ := submittedCount_sound submitted
  obtain ⟨x, exact, value, normal⟩ := ofInt_exact positive (submittedCount_lt submitted)
  have known : ((bookFields title author genre publisher ++
      [pagesMember x]).map Prod.fst).Sublist
        (bookNames ++ [ascii "page_count"]) := by
    rw [List.map_append]
    exact (bookFields_names title author genre publisher).append (.refl _)
  simp only [List.forall_mem_cons, List.forall_mem_append] at fits
  obtain ⟨titleFits, genreFits, publisherFits, firstFits, authorsFit, -⟩ := fits
  have authorFits := askAuthor_fits asked firstFits authorsFit
  have scalars : ∀ member ∈ bookFields title author genre publisher ++
      [pagesMember x], IsScalar member.2 := by
    simp only [bookFields, List.forall_mem_append, List.forall_mem_singleton]
    exact ⟨⟨isScalar_field titleFits, isScalar_field authorFits, isScalar_field genreFits,
      isScalar_field publisherFits⟩, .inr normal⟩
  rw [bookObject_eq title author genre publisher exact]
  obtain ⟨data, serialized, small, parsed⟩ :=
    parse_serializedString malloc known (by decide) (by decide) (by decide) scalars
  refine ⟨data, serialized, ?_⟩
  have sent : request cookies (.addBook data) = some (RequestCall.post host booksUrl contentType
      data (.two (printed cookies.sid) (printed cookies.token))).request := rfl
  have plain : (13 ∉ host ∧ 10 ∉ host) ∧ (13 ∉ booksUrl ∧ 10 ∉ booksUrl) ∧
      13 ∉ contentType ∧ 10 ∉ contentType := by decide
  have cleanCall : (RequestCall.post host booksUrl contentType data
      (.two (printed cookies.sid) (printed cookies.token))).Clean := by
    have clean := printable.clean
    simp only [List.forall_mem_cons] at clean
    simp [RequestCall.Clean, RequestCall.strings, CookiesArgument.strings, plain, clean]
  have read := serverReads_post cleanCall (.inl rfl)
  rw [parsed, Option.map_some] at read
  have none (name : CString) : headerValues name [] = [] := rfl
  have inside : ∀ message ∈ request cookies (.addBook data), Inside message :=
    request_inside small printable
  have declared := declared_length host booksUrl contentType data
    (.two (printed cookies.sid) (printed cookies.token))
  refine ⟨_, _, ⟨by rw [sent]; exact read, inside, rfl, rfl, congrArg some declared, rfl⟩, ?_, ?_,
    getString_book title author genre publisher x, askAuthor_sound asked, x, ?_, ?_⟩
  · simp (disch := decide) [RequestCall.sent, CookiesArgument.count, RequestCall.hostLine,
      RequestCall.contentTypeLine, RequestCall.contentLengthLine, RequestCall.contentLengthName,
      CookiesArgument.lines, headerValues_other, headerValues_same, none]
  · simp (disch := decide) [RequestCall.sent, CookiesArgument.count, RequestCall.hostLine,
      RequestCall.contentTypeLine, RequestCall.contentLengthLine, RequestCall.contentLengthName,
      CookiesArgument.lines, headerValues_other, headerValues_same, none]
  · exact jsonObjectGetnValue_first fun member => absurd
      ((bookFields_names title author genre publisher).subset member) (by decide)
  · rw [value, counted]
    norm_cast

/-- A number of pages. -/
def pagesToken : Token := ⟨ascii "300", by decide, by decide +kernel, by decide +kernel⟩

/-- A book of 300 pages. -/
theorem book_arrives_sample :
    ∃ data, serializedString zeroMalloc
        (bookObject letterToken letterToken letterToken letterToken 300) = some data ∧
      ∃ parsed members, Posts ⟨some (ascii "connect.sid=s"), some (ascii "t")⟩ (.addBook data)
        parsed members := by
  have asked : askAuthor letterToken [] = some letterToken := by decide +kernel
  have submitted : submittedCount [pagesToken] = some (pagesToken, 300) := by decide +kernel
  have printable : Cookies.Printable ⟨some (ascii "connect.sid=s"), some (ascii "t")⟩ :=
    ⟨by decide, by decide⟩
  have fits : ∀ token ∈ letterToken :: letterToken :: letterToken :: letterToken ::
      ([] ++ [pagesToken]), token.Fits := by decide +kernel
  obtain ⟨data, serialized, parsed, members, posts, -⟩ :=
    book_arrives zeroMalloc printable fits asked submitted
  exact ⟨data, serialized, parsed, members, posts⟩

end CommunicationProtocols.Client
