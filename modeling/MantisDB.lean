import MantisDB.CInt
import MantisDB.SqlParser.Token
import MantisDB.SqlParser.Keywords
import MantisDB.SqlParser.Cursor
import MantisDB.SqlParser.Skip
import MantisDB.SqlParser.Scan
import MantisDB.SqlParser.StringLit
import MantisDB.SqlParser.Number
import MantisDB.SqlParser.Operator
import MantisDB.SqlParser.NextToken
import MantisDB.SqlParser.TokenValue
import MantisDB.SqlParser.LexerRun
import MantisDB.SqlParser.Parser
import MantisDB.SqlParser.NodeList
import MantisDB.SqlParser.Tokenize
import MantisDB.SqlParser.CaseFold
import MantisDB.SqlParser.Recovery
import MantisDB.Storage.BTree
import MantisDB.Storage.BufferPool
