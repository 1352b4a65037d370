import QueryLayer.Remote.Server

/-! # Bodies

A server is sent bytes. Where they are a text, it is the text that is read; what is made of bytes that
are none is up to the reader of documents, which may pass over them in members that nothing reads.
-/
namespace QueryLayer

/-- How bodies are read as requests. -/
structure BodyReader where
  read : ByteArray → Except Error Request
  read_toUTF8 : ∀ s : String, read s.toUTF8 = Request.ofText s

namespace BodyReader

/-- Refuses bytes that are no text. -/
def textsOnly : BodyReader where
  read body :=
    match String.fromUTF8? body with
    | some s => Request.ofText s
    | none => .error (.malformed "no text")
  read_toUTF8 s := by
    have hread : String.fromUTF8? s.toUTF8 = some s := dif_pos s.isValidUTF8
    rw [hread]

instance : Inhabited BodyReader := ⟨textsOnly⟩

end BodyReader

namespace Server

variable {σ : Type}

/-- Answers a body. -/
def handleBody (server : Server σ) (reader : BodyReader) (body : ByteArray) : Action σ Value := do
  let request ← reader.read body
  server.dispatch request

variable {server : Server σ} {reader : BodyReader} {body : ByteArray}

theorem handleBody_of_ok {r : Request} (h : reader.read body = .ok r) :
    server.handleBody reader body = server.dispatch r := by
  rw [handleBody, h]
  rfl

theorem runOn_handleBody_of_error {e : Error} (h : reader.read body = .error e) (s : σ) :
    (server.handleBody reader body).runOn s = (.error e, s) := by
  rw [handleBody, h]
  rfl

@[simp] theorem handleBody_toUTF8 (server : Server σ) (reader : BodyReader) (s : String) :
    server.handleBody reader s.toUTF8 = server.handle s := by
  rw [handleBody, reader.read_toUTF8, handle]

end Server

end QueryLayer
