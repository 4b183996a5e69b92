import ApiStubs.Main
import ApiStubs.Proofs.Doc.ShortForm
import ApiStubs.Proofs.Doc.TypeName
import ApiStubs.Proofs.Lua.Key
import ApiStubs.Proofs.Lua.Lexer
import ApiStubs.Proofs.Output.Blocks
import ApiStubs.Proofs.Output.Chunk
import ApiStubs.Proofs.Output.Erasure
import ApiStubs.Proofs.Output.Literals
import ApiStubs.Proofs.Output.Names
import ApiStubs.Proofs.Output.Runs
import ApiStubs.Proofs.Schema.Arguments
import ApiStubs.Proofs.Source.Redirects
import ApiStubs.Proofs.Stub.Edits
import ApiStubs.Proofs.Stub.Sessions
