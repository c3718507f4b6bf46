import Cmlb.Lib.Machine
import Cmlb.Core.Error
import Cmlb.Domain.Task
import Cmlb.Application.Ports
import Cmlb.Application.Pipeline
import Cmlb.Application.Execute
import Cmlb.Application.Steps
import Cmlb.Application.RunInv
import Cmlb.Application.Outcome
import Cmlb.Application.History
import Cmlb.Application.Accounting
import Cmlb.Application.Coverage
import Cmlb.Application.Release
import Cmlb.Application.Agree
import Cmlb.Application.CancelTask
import Cmlb.Application.Cancellation
import Cmlb.Core.Json
import Cmlb.Core.Text
import Cmlb.Domain.Authority
import Cmlb.Download.Aria2
import Cmlb.Download.Finished
import Cmlb.Lib.Prog
import Cmlb.Presentation.Authorization
import Cmlb.Lib.Interleave
import Cmlb.Lib.WorkerPool
import Cmlb.Lib.ClaimCount
import Cmlb.Core.Http
import Cmlb.Rss.FeedPoller
import Cmlb.Download.Qbittorrent
import Cmlb.Download.AddTorrent
import Cmlb.Download.AuthedRequest
import Cmlb.Download.Aria2Socket
import Cmlb.Download.Aria2Calls
import Cmlb.Upload.Pools
import Cmlb.Upload.Directory
import Cmlb.Upload.Resumable
import Cmlb.Lib.Calendar
import Cmlb.Persistence.TimeCodec
import Cmlb.Persistence.TaskRepository
import Cmlb.Lib.Markup
import Cmlb.Core.Formatting
import Cmlb.Presentation.HtmlRenderer
import Cmlb.Application.ShowStatus
import Cmlb.Presentation.Messages
import Cmlb.Lib.Semaphore
import Cmlb.Presentation.ProgressRenderer
import Cmlb.Presentation.SettingsUpdates
import Cmlb.Application.TaskControl
import Cmlb.Http.ConnectionPool
import Cmlb.Http.BeastClient
import Cmlb.Download.SessionCookie
import Cmlb.Persistence.SqliteConnectionPool
import Cmlb.Persistence.SchemaMigrator
import Cmlb.Telegram.Gateway
import Cmlb.Telegram.SendResult
import Cmlb.Telegram.AuthenticationFlow
import Cmlb.Upload.SplitParts
import Cmlb.Core.Cancelled
import Cmlb.Upload.ChunkMoves
import Cmlb.Upload.Failures
import Cmlb.Upload.GoogleDrive
import Cmlb.Upload.Telegram
import Cmlb.Upload.Rclone
import Cmlb.Upload.Cancelled
import Cmlb.Telegram.AwaitSend
import Cmlb.Download.Aria2Pending
import Cmlb.Lib.Delimited
import Cmlb.Upload.Multipart
import Cmlb.Upload.ChunkRetry
import Cmlb.Upload.ChunkClaims
import Cmlb.Upload.Sessions
import Cmlb.Lib.PathTree
import Cmlb.Upload.DirectoryTree
import Cmlb.Lib.Server
import Cmlb.Lib.Descend
import Cmlb.Upload.DriveFiles
import Cmlb.Upload.DriveCount
import Cmlb.Upload.DriveCopy
import Cmlb.Upload.Tokens
import Cmlb.Lib.FixedWidth
import Cmlb.Persistence.TimeOrder
import Cmlb.Http.StaleSockets
import Cmlb.Http.RedirectLimit
import Cmlb.Lib.UriReference
import Cmlb.Http.UrlParsing
import Cmlb.Http.RedirectTarget
import Cmlb.Lib.UniqueKeys
import Cmlb.Persistence.RssFeedRepository
import Cmlb.Upload.WalkFailure
import Cmlb.Lib.Pieces
import Cmlb.Upload.SplitFile
import Cmlb.Upload.SplitCall
import Cmlb.Upload.PartsFrame
import Cmlb.Upload.PartsSent
import Cmlb.Lib.Separated
import Cmlb.System.LineSlicer
import Cmlb.Lib.Trimming
import Cmlb.Presentation.CommandParser
import Cmlb.Presentation.CallbackAnswers
import Cmlb.Lib.Utf8
import Cmlb.Core.DisplayText
import Cmlb.Persistence.ParsedTimes
import Cmlb.Lib.Runs
import Cmlb.System.QuoteArg
import Cmlb.System.CancelHandle
import Cmlb.System.SpawnPipes
import Cmlb.Lib.Regex
import Cmlb.Lib.LetterCase
import Cmlb.Rss.DocumentParser
import Cmlb.Rss.RootElement
import Cmlb.Rss.RoundTrip
import Cmlb.Lib.CheckedInt
import Cmlb.Domain.ByteSize
import Cmlb.Lib.Base64
import Cmlb.Download.Base64Encode
import Cmlb.Lib.PercentEncoding
import Cmlb.Http.PercentEncoders
import Cmlb.Lib.Decimal
import Cmlb.Lib.Words
import Cmlb.Core.IdList
import Cmlb.Lib.Parallel
import Cmlb.Persistence.RssFeedQueries
import Cmlb.Rss.Programs
import Cmlb.Rss.SharedTable
import Cmlb.Rss.Delivery
import Cmlb.Persistence.RepositoryCall
import Cmlb.Persistence.SettingsRepositories
import Cmlb.Core.Configuration
import Cmlb.Upload.ConfiguredSessions
import Cmlb.Application.Startup
import Cmlb.Presentation.Privileges
import Cmlb.Application.ManyTasks
import Cmlb.Application.Termination
import Cmlb.Persistence.TaskMap
import Cmlb.Application.Orphans
import Cmlb.Presentation.DriveLinks
