import FastGeoApi.Lib.Unfolding
import FastGeoApi.Resolver.Basic
import FastGeoApi.Resolver.Documents
import FastGeoApi.Resolver.Termination
import FastGeoApi.Resolver.Inlining
import FastGeoApi.Resolver.Completeness
import FastGeoApi.Resolver.Pointers
import FastGeoApi.Resolver.References
import FastGeoApi.Resolver.Sessions
import FastGeoApi.Resolver.DiskCache
import FastGeoApi.Resolver.Transparency
import FastGeoApi.Resolver.CacheRuns
import FastGeoApi.Config
import FastGeoApi.OpenApi.Augment
import FastGeoApi.OpenApi.Security
import FastGeoApi.Auth.Jwks
import FastGeoApi.Auth.TokenPolicy
import FastGeoApi.Auth.Gate
import FastGeoApi.Auth.FailClosed
import FastGeoApi.Auth.PublicPaths
import FastGeoApi.Middleware.OpenApi
import FastGeoApi.Middleware.Rewriting
import FastGeoApi.Resolver.Freshness
import FastGeoApi.Resolver.Naive
import FastGeoApi.Lib.Interleaving
import FastGeoApi.Startup.OpenapiFile
import FastGeoApi.Startup.Workers
import FastGeoApi.Python.Bytes
import FastGeoApi.Auth.Rfc6750
import FastGeoApi.Auth.SharedMiddleware
import FastGeoApi.Middleware.Proxy
import FastGeoApi.Middleware.Preservation
import FastGeoApi.Middleware.Links
import FastGeoApi.OpenApi.Endpoints
import FastGeoApi.OpenApi.Effect
import FastGeoApi.OpenApi.Frame
import FastGeoApi.OpenApi.Schemes
import FastGeoApi.Auth.BearerToken
import FastGeoApi.Auth.Chain
import FastGeoApi.Auth.TokenErrors
import FastGeoApi.Resolver.Idempotence
import FastGeoApi.Resolver.Fetches
import FastGeoApi.Resolver.JsonPointer
import FastGeoApi.Python.Path
import FastGeoApi.Resolver.Counting
import FastGeoApi.Startup.WellKnownRoutes
import FastGeoApi.Resolver.CacheWriter
import FastGeoApi.Startup.OpenapiCommand
import FastGeoApi.Api.Conformance
import FastGeoApi.Auth.ClientAssertions
import FastGeoApi.Middleware.RootPath
import FastGeoApi.Resolver.WarmStart
import FastGeoApi.Lib.JsonTrailing
import FastGeoApi.Resolver.SharedCache
import FastGeoApi.Lib.Layers
import FastGeoApi.Middleware.Stack
import FastGeoApi.Startup.McpServer
import FastGeoApi.Startup.Application
import FastGeoApi.Startup.Access
import FastGeoApi.Startup.ServedDocument
import FastGeoApi.OpenApi.Generation
import FastGeoApi.Resolver.Places
import FastGeoApi.Startup.McpSpec
import FastGeoApi.Startup.Routing
import FastGeoApi.Resolver.Snapshot
import FastGeoApi.Api.Datetime
import FastGeoApi.Lib.Threads
import FastGeoApi.Api.Responses
import FastGeoApi.Api.ConformanceThreads
