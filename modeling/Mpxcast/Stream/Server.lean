import Mpxcast.Core.LinkedQueue
import Mpxcast.Core.Registry
import Mpxcast.Input.RtlSource
import Mpxcast.Stream.Session

/-!
# The stream server

`stream/server.c`: one session, a queue of its PCM chunks, and the clients that read the queue at
their own pace. Every function here runs in one section of the server lock, or touches only the
client it is called for. `none` stands for an access to freed memory.
-/

namespace Mpxcast

open LinkedHeap Registry

/-- The address of a `struct client_stream`. -/
abbrev ClientId := ℕ

def streamMaxBufferedChunks : ℕ := 256

structure Server where
  rtlSource : RtlSource
  session : StreamSession
  sessionRequest : StreamHttpRequest
  activeSessionId : ℕ
  sessionActive : Bool
  chunks : Queue PcmChunk
  clients : AList fun _ : ClientId => ClientStream

/-- The server as `server_run` starts it, with an opened source. -/
def serverInit (rtlSource : RtlSource) : Server where
  rtlSource := rtlSource
  session := streamSessionInit
  sessionRequest := ⟨false, false, 0, 0, 0, .mono, .wav⟩
  activeSessionId := 0
  sessionActive := false
  chunks := .empty
  clients := ∅

def streamRequestMatchesSession (server : Server) (request : StreamHttpRequest) : Bool :=
  let current := server.sessionRequest
  server.sessionActive && decide (current.frequencyHz = request.frequencyHz) &&
    decide (current.volumeGain = request.volumeGain) &&
    decide (current.deemphasisTauUs = request.deemphasisTauUs) &&
    decide (current.mode = request.mode) && decide (current.container = request.container) &&
    decide (current.rdsEnabled = request.rdsEnabled) &&
    decide (current.icyMetadataRequested = request.icyMetadataRequested)

/-- The client belongs to the active session. -/
def Server.isCurrent (server : Server) (stream : ClientStream) : Bool :=
  decide (stream.sessionId = server.activeSessionId)

/-- A changed client in its place. -/
def Server.setClient (server : Server) (client : ClientId) (stream : ClientStream) : Server :=
  { server with
    clients := mapVals (fun id old => if id = client then stream else old) server.clients }

def serverClientCount (server : Server) (sessionId : ℕ) : ℕ :=
  (server.clients.entries.filter fun e => e.2.sessionId = sessionId).length

def serverHasCurrentClients (server : Server) : Bool :=
  decide (0 < serverClientCount server server.activeSessionId)

/-! ### The chunk queue -/

def serverClearChunks (server : Server) : Option Server := do
  let chunks ← server.chunks.clear
  return { server with chunks }

/-- Some current client will read this chunk next. -/
def Server.hasReader (server : Server) (p : Ptr) : Bool :=
  server.clients.entries.any fun e => server.isCurrent e.2 && decide (e.2.nextChunk = some p)

def serverPruneChunks (server : Server) : Option Server := do
  let chunks ← server.chunks.prune server.hasReader
  return { server with chunks }

/-- A current client that has not read the oldest chunk. -/
def Server.lags (server : Server) (stream : ClientStream) : Bool :=
  server.isCurrent stream && decide (stream.nextChunk = server.chunks.head)

/-- The clients that lag lose their session. -/
def Server.dropLagging (server : Server) : Server :=
  { server with
    clients := mapVals (fun _ stream =>
      if server.lags stream then { stream with sessionId := 0, droppedForLag := true } else stream)
      server.clients }

/-- One round of the loop of `server_make_chunk_room`; the flag is false once it has returned false.
-/
def serverMakeChunkRoomRound : Server × Bool → Option (Server × Bool) := fun (server, _) =>
  if !server.clients.entries.any fun e => server.lags e.2 then some (server, false)
  else do
    let server ← serverPruneChunks server.dropLagging
    return (server, true)

def serverMakeChunkRoom (server : Server) : Option (Server × Bool) :=
  Loop.run (fun (server, room) => room && decide (streamMaxBufferedChunks ≤ server.chunks.count))
    serverMakeChunkRoomRound (server.clients.entries.length + 1) (server, true)

/-! ### Producing -/

/-- `calloc` of a chunk, given what is allocated. -/
structure Allocator where
  address : Heap PcmChunk → Option Ptr
  fresh : ∀ heap p, address heap = some p → p ∉ heap

/-- What happens around the production of a chunk: its allocation, what the pipeline makes of the
source, and the source afterwards. -/
structure ProduceEnv where
  calloc : Allocator
  live : LiveBlock
  rtlSource : RtlSource

/-- The chunk is linked and becomes the next one of all clients that have read everything. -/
def Server.linkChunk (server : Server) (p : Ptr) (chunk : PcmChunk) : Option Server := do
  let chunks ← server.chunks.append p chunk
  return { server with
    chunks
    clients := mapVals (fun _ stream =>
      if server.isCurrent stream ∧ stream.nextChunk = none then { stream with nextChunk := some p }
      else stream) server.clients }

/-- The server, and the chunk unless the function returns -1. -/
def serverProduceChunk (server : Server) (env : ProduceEnv) :
    Option (Server × Option PcmChunk) := do
  let (server, room) ← serverMakeChunkRoom server
  if !room then return (server, none)
  else
    match env.calloc.address server.chunks.heap with
    | none => return (server, none)
    | some p =>
      let (session, frameCount, result) := streamSessionFillPcmChunk server.session env.live
      let server := { server with session, rtlSource := env.rtlSource }
      if result ≠ 0 then return (server, none)
      else
        let chunk : PcmChunk := ⟨frameCount, session.pcmBuffer⟩
        let server ← server.linkChunk p chunk
        return ({ server with session := streamSessionNoteQueuedFrames server.session frameCount },
          some chunk)

/-! ### Reading -/

/-- How a section of `stream_content_reader` ends: it returns bytes or the end of the stream, or it
goes round its loop again. A packed chunk is named beside its bytes, a produced one beside its
session. -/
inductive ReaderOutcome
  | prelude (bytes : List UInt8)
  | packed (chunk : PcmChunk) (bytes : List UInt8)
  | endOfStream
  | endWithError
  | produced (sessionId : ℕ) (chunk : PcmChunk)
  | waiting (delay : ℚ)

/-- The size of MHD's buffer and the two readings of the clock. -/
structure ReaderEnv extends ProduceEnv where
  max : ℕ
  startedAt : ℚ
  now : ℚ

/-- The first call: the prelude. -/
def streamContentPrelude (server : Server) (client : ClientId) (stream : ClientStream) (max : ℕ) :
    Server × ReaderOutcome :=
  match clientStreamBuildPrelude stream with
  | (stream, none) => (server.setClient client stream, .endWithError)
  | (stream, some bytes) =>
    if bytes.length > max then (server.setClient client stream, .endWithError)
    else (server.setClient client { stream with preludePending := false }, .prelude bytes)

/-- The next chunk of the client is packed. -/
def streamContentPack (server : Server) (client : ClientId) (stream : ClientStream) (p : Ptr)
    (max : ℕ) : Option (Server × ReaderOutcome) := do
  let node ← server.chunks.heap.lookup p
  let (stream, packed) ← clientStreamPackChunk { stream with nextChunk := node.next } node.value
    server.session.icy
  let server := server.setClient client stream
  match packed with
  | none => return (server, .endWithError)
  | some bytes =>
    if bytes.length > max then return (server, .endWithError)
    else
      let server ← serverPruneChunks server
      return (server, .packed node.value bytes)

/-- The client has read everything: a chunk is produced when it is due. -/
def streamContentProduce (server : Server) (env : ReaderEnv) : Option (Server × ReaderOutcome) :=
  let server := { server with session := streamSessionStartClock server.session env.startedAt }
  let delay := streamSessionComputeAudioDelay server.session env.now
  if delay ≤ 0 then do
    let (server, chunk) ← serverProduceChunk server env.toProduceEnv
    match chunk with
    | none => return (server, .endWithError)
    | some chunk => return (server, .produced server.activeSessionId chunk)
  else some (server, .waiting delay)

/-- One section of `stream_content_reader`. -/
def streamContentReader (server : Server) (client : ClientId) (stream : ClientStream)
    (env : ReaderEnv) : Option (Server × ReaderOutcome) :=
  if stream.preludePending then some (streamContentPrelude server client stream env.max)
  else if !server.sessionActive || decide (server.activeSessionId ≠ stream.sessionId) then
    some (server, .endOfStream)
  else
    match stream.nextChunk with
    | some p => streamContentPack server client stream p env.max
    | none => streamContentProduce server env

def streamContentFree (server : Server) (client : ClientId) : Option Server :=
  let server := { server with clients := server.clients.erase client }
  if server.sessionActive && !serverHasCurrentClients server then do
    let server ← serverClearChunks server
    return { server with sessionActive := false }
  else serverPruneChunks server

/-! ### Requests -/

/-- Why a request is answered with an empty response. -/
inductive RejectReason
  | parse (status : ℕ)
  | noMemory
  | tune
  | metadata
deriving DecidableEq

def RejectReason.status : RejectReason → ℕ
  | .parse status => status
  | .noMemory => 500
  | .tune => 503
  | .metadata => 500

inductive RequestOutcome
  | continued
  | cover
  | rejected (reason : RejectReason)
  | connected (client : ClientId)

/-- What `handle_request` is given: whether it is the first call for its request, the upload,
whether it asks for the cover, what `stream_http_parse_request` makes of it, and how the external
calls end. -/
structure RequestEnv where
  firstCall : Bool
  uploadDataSize : ℕ
  cover : Bool
  parsed : Except ℕ StreamHttpRequest
  calloc : Option ClientId
  tune : RtlTuneEnv

/-- The new client joins the session. -/
def Server.connect (server : Server) (client : ClientId) (request : StreamHttpRequest) : Server :=
  { server with
    clients := server.clients.insert client
      { nextChunk := none
        mpegtsMux := streamMuxMpegtsInit (UInt16.ofNat request.mode.channels)
        icy := server.session.icy
        sessionId := server.activeSessionId
        preludePending := true
        droppedForLag := false
        mode := request.mode
        container := request.container } }

/-- A request with settings other than those of the active session replaces it; the reason why not,
if it fails. -/
def serverReplaceSession (server : Server) (request : StreamHttpRequest) (tune : RtlTuneEnv) :
    Option (Server × Option RejectReason) := do
  let (rtlSource, tuned) := rtlSourceTune server.rtlSource request.frequencyHz tune
  let server := { server with rtlSource }
  if tuned ≠ 0 then return (server, some .tune)
  else
    let server ← serverClearChunks server
    let (session, refreshed) :=
      streamSessionRefreshMetadata (streamSessionConfigure streamSessionInit request)
    let server := { server with session }
    if refreshed ≠ 0 then return (server, some .metadata)
    else
      return ({ server with
          sessionRequest := request
          sessionActive := true
          activeSessionId := server.activeSessionId + 1 }, none)

def handleRequest (server : Server) (env : RequestEnv) : Option (Server × RequestOutcome) :=
  if env.firstCall || decide (env.uploadDataSize ≠ 0) then some (server, .continued)
  else if env.cover then some (server, .cover)
  else
    match env.parsed with
    | .error status => some (server, .rejected (.parse status))
    | .ok request =>
      match env.calloc with
      | none => some (server, .rejected .noMemory)
      | some client =>
        if streamRequestMatchesSession server request then
          some (server.connect client request, .connected client)
        else do
          let (server, failed) ← serverReplaceSession server request env.tune
          match failed with
          | some reason => return (server, .rejected reason)
          | none => return (server.connect client request, .connected client)

/-! ### Interleavings -/

/-- What happens to the source outside the server lock or while a chunk is produced. -/
inductive SourceStep : RtlSource → RtlSource → Prop
  | push {source source' : RtlSource} {bytes : List UInt8} :
      rtlSourcePushBytes source bytes = some source' → SourceStep source source'
  | threadExit (source : RtlSource) (result : Int) : SourceStep source (source.threadExit result)
  | read {source source' : RtlSource} {read : PendingRead} {status : RtlReadStatus} :
      rtlSourceReadSection source read = some (source', status) → SourceStep source source'
  | readFile {source : RtlSource} {file file' : RtlFile} {byteCount : ℕ} {bytes : List UInt8} :
      source.file = some file → rtlSourceReadFile file byteCount = some (file', bytes) →
      SourceStep source { source with file := some file' }

abbrev SourceEvolves : RtlSource → RtlSource → Prop := Relation.ReflTransGen SourceStep

inductive ServerLabel
  | request (env : RequestEnv) (outcome : RequestOutcome)
  | read (client : ClientId) (env : ReaderEnv) (outcome : ReaderOutcome)
  | free (client : ClientId)
  | source

inductive ServerStep : Server → ServerLabel → Server → Prop
  | request {s s' : Server} {env : RequestEnv} {outcome : RequestOutcome} :
      (∀ client, env.calloc = some client → client ∉ s.clients) →
      handleRequest s env = some (s', outcome) → ServerStep s (.request env outcome) s'
  | read {s s' : Server} {client : ClientId} {stream : ClientStream} {env : ReaderEnv}
      {outcome : ReaderOutcome} :
      s.clients.lookup client = some stream → SourceEvolves s.rtlSource env.rtlSource →
      streamContentReader s client stream env = some (s', outcome) →
      ServerStep s (.read client env outcome) s'
  | free {s s' : Server} {client : ClientId} :
      client ∈ s.clients → streamContentFree s client = some s' → ServerStep s (.free client) s'
  | source {s : Server} {rtlSource : RtlSource} :
      SourceEvolves s.rtlSource rtlSource → ServerStep s .source { s with rtlSource }

/-- `rtl_source_start` opened the device, or `rtl_source_start_file` the file. -/
def serverLts : Lts Server ServerLabel where
  init s := ∃ source, s = serverInit source ∧
    ((∃ memory, source = (rtlSourceStart rtlSourceInit true memory).1) ∨
      ∃ contents, rtlSourceStartFile rtlSourceInit contents = (source, 0))
  step := ServerStep

end Mpxcast
