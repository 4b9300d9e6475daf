import KernelTestkit.Net.Sys
import KernelTestkit.Net.Transfer
import KernelTestkit.Net.TransferTheorems
import KernelTestkit.Api.Cjson
import KernelTestkit.Api.Test
import KernelTestkit.Api.Frame
import KernelTestkit.Api.FrameTheorems
import KernelTestkit.Api.Parameters
import KernelTestkit.Api.ParametersTheorems
import KernelTestkit.Api.AgreementTheorems
import KernelTestkit.Api.SenderTheorems
import KernelTestkit.Api.Exchange
import KernelTestkit.Server.Accept
import KernelTestkit.Api.ExchangeTheorems
import KernelTestkit.Server.AcceptTheorems
import KernelTestkit.Server.SessionTheorems
import KernelTestkit.Lib.Ring
import KernelTestkit.Util.ListHead
import KernelTestkit.Util.ListHeadTheorems
import KernelTestkit.Api.RetransmitTheorems
import KernelTestkit.Api.NumberTheorems
import KernelTestkit.Api.ReadTheorems
import KernelTestkit.Server.Run
import KernelTestkit.Server.RunTheorems
import KernelTestkit.Cli.Arguments
import KernelTestkit.Cli.ArgumentsTheorems
import KernelTestkit.Cli.LimitTheorems
import KernelTestkit.Util.IterationTheorems
import KernelTestkit.Api.OrderTheorems
import KernelTestkit.Server.Timer
import KernelTestkit.Server.TimerTheorems
import KernelTestkit.Cli.OrderTheorems
import KernelTestkit.Net.ReportTheorems
import KernelTestkit.Lib.Decimal
import KernelTestkit.Server.Announce
import KernelTestkit.Server.AnnounceTheorems
import KernelTestkit.Server.Connect
import KernelTestkit.Server.ConnectTheorems
import KernelTestkit.Lib.FloatText
import KernelTestkit.Cli.Rate
import KernelTestkit.Cli.RateTheorems
import KernelTestkit.Lib.GeneralFormat
import KernelTestkit.Json.Number
import KernelTestkit.Json.NumberTheorems
import KernelTestkit.Json.Item
import KernelTestkit.Json.Utf16
import KernelTestkit.Json.Parse
import KernelTestkit.Json.Read
import KernelTestkit.Json.ParseTheorems
import KernelTestkit.Json.Grammar
import KernelTestkit.Json.GrammarTheorems
import KernelTestkit.Json.Print
import KernelTestkit.Json.Render
import KernelTestkit.Json.PrintTheorems
import KernelTestkit.Json.RoundTripTheorems
import KernelTestkit.Json.LibraryTheorems
import KernelTestkit.Json.Minify
import KernelTestkit.Json.MinifyTheorems
import KernelTestkit.Lib.Forest
import KernelTestkit.Items.Edit
import KernelTestkit.Items.EditTheorems
import KernelTestkit.Items.Calls
import KernelTestkit.Items.CallsTheorems
import KernelTestkit.Items.DuplicateTheorems
import KernelTestkit.Items.Parse
import KernelTestkit.Items.ParseTheorems
import KernelTestkit.Items.ParseTheorems
